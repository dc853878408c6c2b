import Mathlib
import RowStore.Calendar.DateTime

/-!
# Moments in order

A moment lies in a second, counted from the first day of year zero, and a leap second is more time
in the second before it. In this order the greatest part that differs decides, from the year down to
the nanosecond.
-/

namespace RowStore.DateTime

open Finset (range)

/-! ## Seconds -/

def daysInYear (year : Int) : Nat := ∑ m ∈ range 12, daysInMonth year (m + 1)

/-- The days of the year before a date. -/
def dayOfYear (t : DateTime) : Nat :=
  ∑ m ∈ range (t.month - 1), daysInMonth t.year (m + 1) + (t.day - 1)

/-- The days before a date, from the first day of year zero. -/
def daysBefore (t : DateTime) : Nat := ∑ y ∈ range t.year.toNat, daysInYear y + t.dayOfYear

def seconds (t : DateTime) : Nat := ((t.daysBefore * 24 + t.hour) * 60 + t.minute) * 60 + t.second

/-- The order of time. -/
def Before (s t : DateTime) : Prop :=
  s.seconds < t.seconds ∨ s.seconds = t.seconds ∧ s.nanosecond < t.nanosecond

/-! ## Days in order -/

section

variable {f : Nat → Nat} {a b x y : Nat}

theorem sum_range_add_lt (h : a < b) (hx : x < f a) :
    ∑ i ∈ range a, f i + x < ∑ i ∈ range b, f i := by
  calc ∑ i ∈ range a, f i + x < ∑ i ∈ range a, f i + f a := Nat.add_lt_add_left hx _
    _ = ∑ i ∈ range (a + 1), f i := (Finset.sum_range_succ f a).symm
    _ ≤ ∑ i ∈ range b, f i := Finset.sum_le_sum_of_subset (Finset.range_mono h)

theorem sum_range_add_lt_iff (hx : x < f a) (hy : y < f b) :
    ∑ i ∈ range a, f i + x < ∑ i ∈ range b, f i + y ↔ a < b ∨ a = b ∧ x < y := by
  rcases Nat.lt_trichotomy a b with h | rfl | h
  · have hless := sum_range_add_lt (f := f) h hx
    omega
  · omega
  · have hless := sum_range_add_lt (f := f) h hy
    omega

theorem mul_add_lt_iff {k : Nat} (hx : x < k) (hy : y < k) :
    a * k + x < b * k + y ↔ a < b ∨ a = b ∧ x < y := by
  have hsum (n : Nat) : ∑ i ∈ range n, k = n * k := by simp
  rw [← hsum a, ← hsum b]
  exact sum_range_add_lt_iff hx hy

theorem mul_add_inj {k : Nat} (hx : x < k) (hy : y < k) :
    a * k + x = b * k + y ↔ a = b ∧ x = y := by
  have hless := mul_add_lt_iff (a := a) (b := b) hx hy
  have hgreater := mul_add_lt_iff (a := b) (b := a) hy hx
  omega

end

/-- A day that there is, from year zero on. -/
structure Dated (t : DateTime) : Prop where
  year : 0 ≤ t.year
  month : 1 ≤ t.month ∧ t.month ≤ 12
  day : 1 ≤ t.day ∧ t.day ≤ daysInMonth t.year t.month

namespace Dated

variable {s t : DateTime} (hs : s.Dated) (ht : t.Dated)

theorem of_isValid (h : t.isValid = true) (hyear : 0 ≤ t.year) : t.Dated := by
  simp only [isValid, isDate, Bool.and_eq_true, decide_eq_true_eq] at h
  obtain ⟨⟨⟨⟨⟨-, hlow⟩, hhigh⟩, hfirst⟩, hlast⟩, -⟩ := h
  exact ⟨hyear, ⟨hlow, hhigh⟩, hfirst, hlast⟩

include hs

theorem day_lt : s.day - 1 < daysInMonth s.year (s.month - 1 + 1) := by
  have := hs.month
  have := hs.day
  rw [Nat.sub_add_cancel hs.month.1]
  omega

theorem dayOfYear_lt : s.dayOfYear < daysInYear s.year := by
  have := hs.month
  exact sum_range_add_lt (f := fun m => daysInMonth s.year (m + 1)) (by omega) hs.day_lt

include ht

theorem dayOfYear_lt_iff (h : s.year = t.year) :
    s.dayOfYear < t.dayOfYear ↔ s.month < t.month ∨ s.month = t.month ∧ s.day < t.day := by
  have hlast := ht.day_lt
  unfold dayOfYear
  rw [← h] at hlast ⊢
  rw [sum_range_add_lt_iff (f := fun m => daysInMonth s.year (m + 1)) hs.day_lt hlast]
  have := hs.month
  have := ht.month
  have := hs.day
  have := ht.day
  omega

theorem daysBefore_lt_iff : s.daysBefore < t.daysBefore ↔
    s.year < t.year ∨ s.year = t.year ∧
      (s.month < t.month ∨ s.month = t.month ∧ s.day < t.day) := by
  have hyear {t : DateTime} (h : t.Dated) : ((t.year.toNat : Nat) : Int) = t.year :=
    Int.toNat_of_nonneg h.year
  have hless {t : DateTime} (h : t.Dated) : t.dayOfYear < daysInYear (t.year.toNat : Nat) := by
    rw [hyear h]
    exact h.dayOfYear_lt
  unfold daysBefore
  rw [sum_range_add_lt_iff (f := fun y => daysInYear y) (hless hs) (hless ht)]
  have hs' := hyear hs
  have ht' := hyear ht
  constructor
  · rintro (h | ⟨h, hday⟩)
    · exact Or.inl (by omega)
    · have heq : s.year = t.year := by omega
      exact Or.inr ⟨heq, (hs.dayOfYear_lt_iff ht heq).mp hday⟩
  · rintro (h | ⟨h, hday⟩)
    · exact Or.inl (by omega)
    · exact Or.inr ⟨by omega, (hs.dayOfYear_lt_iff ht h).mpr hday⟩

end Dated

/-! ## Parts in order -/

/-- The greatest part that differs is less. -/
def Less (s t : DateTime) : Prop :=
  s.year < t.year ∨ s.year = t.year ∧ (s.month < t.month ∨ s.month = t.month ∧
    (s.day < t.day ∨ s.day = t.day ∧ (s.hour < t.hour ∨ s.hour = t.hour ∧
      (s.minute < t.minute ∨ s.minute = t.minute ∧ (s.second < t.second ∨ s.second = t.second ∧
        s.nanosecond < t.nanosecond)))))

theorem clock_lt {t : DateTime} (h : t.isValid = true) :
    t.hour < 24 ∧ t.minute < 60 ∧ t.second < 60 ∧ t.nanosecond < 2000000000 := by
  simp only [isValid, isTime, Bool.and_eq_true, decide_eq_true_eq] at h
  obtain ⟨-, ⟨⟨hhour, hminute⟩, hsecond⟩, hnano⟩ := h
  exact ⟨hhour, hminute, hsecond, hnano⟩

theorem before_iff_less {s t : DateTime} (hs : s.isValid = true) (ht : t.isValid = true)
    (hsyear : 0 ≤ s.year) (htyear : 0 ≤ t.year) : s.Before t ↔ s.Less t := by
  have hdays := (Dated.of_isValid hs hsyear).daysBefore_lt_iff (.of_isValid ht htyear)
  have hdays' := (Dated.of_isValid ht htyear).daysBefore_lt_iff (.of_isValid hs hsyear)
  have hsame : s.daysBefore = t.daysBefore ↔
      s.year = t.year ∧ s.month = t.month ∧ s.day = t.day := by omega
  obtain ⟨hshour, hsminute, hssecond, -⟩ := clock_lt hs
  obtain ⟨hthour, htminute, htsecond, -⟩ := clock_lt ht
  rw [Before, seconds, seconds, mul_add_lt_iff hssecond htsecond, mul_add_inj hssecond htsecond,
    mul_add_lt_iff hsminute htminute, mul_add_inj hsminute htminute,
    mul_add_lt_iff hshour hthour, mul_add_inj hshour hthour, hdays, hsame, Less]
  simp only [and_or_left, or_assoc, and_assoc]

end RowStore.DateTime
