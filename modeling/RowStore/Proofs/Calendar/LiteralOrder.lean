import Mathlib
import RowStore.Proofs.Calendar.Chronology
import RowStore.Proofs.Calendar.TextOrder
import RowStore.Proofs.Wire.Datum

/-!
# Timestamps in literals

A timestamp is written down to its microsecond. The bytes of two literals are in the order of time,
although a fraction has no digits, three or six, and a leap second is second sixty.
-/

namespace RowStore.DateTime

open Sql (stringChar)
open Text (isAsciiDigit utf8Bytes)

/-- What stands between the quotes of a literal. -/
def content (t : DateTime) : String := String.ofList (t.toMicrosecond.chars ' ')

/-- A day and a time of the years that four digits can write. -/
structure Plain (t : DateTime) : Prop where
  valid : t.isValid = true
  year : 0 ≤ t.year ∧ t.year ≤ 9999
  placed : t.Placed

theorem Plain.toMicrosecond {t : DateTime} (h : t.Plain) : t.toMicrosecond.Plain where
  valid := isValid_toMicrosecond t h.valid
  year := h.year
  placed := by
    have hplaced := h.placed
    unfold Placed DateTime.toMicrosecond at *
    dsimp only
    omega

/-! ## Characters -/

/-- The characters of a timestamp. -/
def Mark (c : Char) : Prop := isAsciiDigit c = true ∨ c ∈ ['-', ' ', ':', '.']

theorem Mark.lt {c : Char} (h : Mark c) : c.toNat < 128 := by
  rcases h with h | h
  · have := (isAsciiDigit_iff c).mp h
    omega
  · simp only [List.mem_cons, List.not_mem_nil, or_false] at h
    rcases h with rfl | rfl | rfl | rfl <;> decide

theorem Mark.stringChar {c : Char} (h : Mark c) : stringChar c = [c] := by
  unfold Sql.stringChar
  split
  case h_10 => rfl
  all_goals exact absurd h (by unfold Mark; decide)

theorem mark_paddedChars (width n : Nat) : ∀ c ∈ paddedChars width n, Mark c :=
  fun c hc => Or.inl ((isDigits_paddedChars width n).2 c hc)

theorem mark_fractionChars (n : Nat) : ∀ c ∈ fractionChars n, Mark c := by
  have hpoint (cs : List Char) (h : ∀ c ∈ cs, Mark c) : ∀ c ∈ '.' :: cs, Mark c :=
    List.forall_mem_cons.mpr ⟨Or.inr (by decide), h⟩
  unfold fractionChars
  split
  · exact fun c hc => nomatch hc
  split
  · exact hpoint _ (mark_paddedChars 3 _)
  split
  · exact hpoint _ (mark_paddedChars 6 _)
  · exact hpoint _ (mark_paddedChars 9 _)

theorem yearChars_of_le {year : Int} (h : 0 ≤ year ∧ year ≤ 9999) :
    yearChars year = paddedChars 4 year.toNat :=
  if_pos (by simpa using h)

theorem mark_chars {t : DateTime} (h : 0 ≤ t.year ∧ t.year ≤ 9999) :
    ∀ c ∈ t.chars ' ', Mark c := by
  have hmark (c : Char) (hc : c ∈ ['-', ' ', ':', '.']) : Mark c := Or.inr hc
  simp only [chars, dateChars, timeChars, yearChars_of_le h, List.forall_mem_append,
    List.forall_mem_cons]
  exact ⟨⟨mark_paddedChars 4 _, hmark _ (by decide), mark_paddedChars 2 _, hmark _ (by decide),
    mark_paddedChars 2 _⟩, hmark _ (by decide), mark_paddedChars 2 _, hmark _ (by decide),
    mark_paddedChars 2 _, hmark _ (by decide), mark_paddedChars 2 _, mark_fractionChars _⟩

theorem literalText_timestamp {t : DateTime} (h : 0 ≤ t.year ∧ t.year ≤ 9999) :
    (Value.timestamp t).literalText = "'" ++ t.content ++ "'" := by
  have hmark : ∀ c ∈ t.toMicrosecond.chars ' ', stringChar c = [c] :=
    fun c hc => (mark_chars (t := t.toMicrosecond) h c hc).stringChar
  have hplain : (t.toMicrosecond.chars ' ').flatMap stringChar = t.toMicrosecond.chars ' ' := by
    rw [List.flatMap_congr hmark, List.flatMap_singleton']
  rw [Value.literalText, Value.literal, Sql.Literal.text, Sql.quoteString, String.toList_ofList,
    Sql.quotedString, hplain, content]
  simp [← String.toList_inj]

/-! ## Fractions in order -/

/-- The second three digits of a fraction, unless they are zeros. -/
def microChars (micro : Nat) : List Char := if micro = 0 then [] else paddedChars 3 micro

theorem fractionChars_eq {n : Nat} (hwhole : n % 1000 = 0) (hn : n < 1000000000) :
    fractionChars n = if n = 0 then []
      else '.' :: (paddedChars 3 (n / 1000000) ++ microChars (n / 1000 % 1000)) := by
  unfold fractionChars microChars
  split
  · rfl
  split
  · rw [if_pos (by omega), List.append_nil]
  · have hvalue : n / 1000 = n / 1000000 * 10 ^ 3 + n / 1000 % 1000 := by omega
    rw [if_neg (by omega), paddedChars_append (by decide) (by decide) (by omega) (by omega),
      ← hvalue]

theorem ite_nil_lt_iff {m n : Nat} {cs ds : List Char} (hcs : cs ≠ []) (hds : ds ≠ [])
    (h : cs < ds ↔ m < n) :
    (if m = 0 then [] else cs) < (if n = 0 then [] else ds) ↔ m < n := by
  obtain ⟨c, cs, rfl⟩ := List.exists_cons_of_ne_nil hcs
  obtain ⟨d, ds, rfl⟩ := List.exists_cons_of_ne_nil hds
  split <;> split
  · simp [*]
  · exact iff_of_true (List.nil_lt_cons _ _) (by omega)
  · exact iff_of_false (List.not_lt_nil _) (by omega)
  · exact h

theorem microChars_lt_iff {m n : Nat} (hm : m < 1000) (hn : n < 1000) :
    microChars m < microChars n ↔ m < n :=
  ite_nil_lt_iff (isDigits_paddedChars 3 m).1 (isDigits_paddedChars 3 n).1
    (paddedChars_lt_iff (by decide) hm hn)

theorem fractionChars_lt_iff {m n : Nat} (hm : m % 1000 = 0) (hn : n % 1000 = 0)
    (hm' : m < 1000000000) (hn' : n < 1000000000) :
    fractionChars m < fractionChars n ↔ m < n := by
  rw [fractionChars_eq hm hm', fractionChars_eq hn hn']
  refine ite_nil_lt_iff (List.cons_ne_nil _ _) (List.cons_ne_nil _ _) ?_
  rw [List.cons_lt_cons_iff, paddedChars_append_lt_iff (by decide) (by omega) (by omega),
    microChars_lt_iff (by omega) (by omega)]
  simp only [lt_self_iff_false, false_or, true_and]
  omega

/-! ## Literals in order -/

/-- Second sixty stands between second 59 and the next minute, as the leap second does. -/
theorem second_lt_iff {s t : DateTime} (hs : s.Plain) (ht : t.Plain) :
    (s.second + s.nanosecond / 1000000000 < t.second + t.nanosecond / 1000000000 ∨
        s.second + s.nanosecond / 1000000000 = t.second + t.nanosecond / 1000000000 ∧
          s.nanosecond % 1000000000 < t.nanosecond % 1000000000) ↔
      s.second < t.second ∨ s.second = t.second ∧ s.nanosecond < t.nanosecond := by
  have hs' := hs.placed
  have ht' := ht.placed
  obtain ⟨-, -, hssecond, hsnano⟩ := clock_lt hs.valid
  obtain ⟨-, -, htsecond, htnano⟩ := clock_lt ht.valid
  unfold Placed at hs' ht'
  omega

theorem Plain.month_day_lt {t : DateTime} (h : t.Plain) : t.month < 10 ^ 2 ∧ t.day < 10 ^ 2 := by
  have hvalid := h.valid
  rw [isValid, Bool.and_eq_true] at hvalid
  have := day_le hvalid.1
  omega

theorem chars_lt_iff {s t : DateTime} (hs : s.Plain) (ht : t.Plain)
    (hs' : s.nanosecond % 1000 = 0) (ht' : t.nanosecond % 1000 = 0) :
    s.chars ' ' < t.chars ' ' ↔ s.Less t := by
  have hmark (c : Char) (cs ds : List Char) : c :: cs < c :: ds ↔ cs < ds := by simp
  have htwo : 0 < 2 := by decide
  obtain ⟨hsmonth, hsday⟩ := hs.month_day_lt
  obtain ⟨htmonth, htday⟩ := ht.month_day_lt
  obtain ⟨hshour, hsminute, hssecond, hsnano⟩ := clock_lt hs.valid
  obtain ⟨hthour, htminute, htsecond, htnano⟩ := clock_lt ht.valid
  have hyear := hs.year
  have hyear' := ht.year
  have hless : s.year.toNat < t.year.toNat ↔ s.year < t.year := by omega
  have hsame : s.year.toNat = t.year.toNat ↔ s.year = t.year := by omega
  unfold chars dateChars timeChars
  simp only [yearChars_of_le hs.year, yearChars_of_le ht.year, List.append_assoc,
    List.cons_append]
  -- Part by part, each of one width and with the same mark behind it.
  rw [paddedChars_append_lt_iff (by decide) (by omega) (by omega), hmark,
    paddedChars_append_lt_iff htwo hsmonth htmonth, hmark,
    paddedChars_append_lt_iff htwo hsday htday, hmark,
    paddedChars_append_lt_iff htwo (by omega) (by omega), hmark,
    paddedChars_append_lt_iff htwo (by omega) (by omega), hmark,
    paddedChars_append_lt_iff htwo (by omega) (by omega),
    fractionChars_lt_iff (by omega) (by omega) (by omega) (by omega), second_lt_iff hs ht, hless,
    hsame, Less]

/-! ## Timestamps -/

theorem utf8Bytes_content_lt_iff {s t : DateTime} (hs : s.Plain) (ht : t.Plain) :
    utf8Bytes s.content < utf8Bytes t.content ↔ s.toMicrosecond.Before t.toMicrosecond := by
  have hwhole (t : DateTime) : t.toMicrosecond.nanosecond % 1000 = 0 := Nat.mul_mod_left _ _
  rw [content, content,
    utf8Bytes_lt_iff (fun c hc => (mark_chars hs.toMicrosecond.year c hc).lt)
      (fun c hc => (mark_chars ht.toMicrosecond.year c hc).lt),
    chars_lt_iff hs.toMicrosecond ht.toMicrosecond (hwhole s) (hwhole t),
    before_iff_less hs.toMicrosecond.valid ht.toMicrosecond.valid hs.year.1 ht.year.1]

theorem read?_content {t : DateTime} (h : t.Plain) :
    read? t.content.toList = some t.toMicrosecond := by
  rw [content, String.toList_ofList]
  exact read?_chars _ h.toMicrosecond.valid h.toMicrosecond.placed

theorem content_inj {s t : DateTime} (hs : s.Plain) (ht : t.Plain) :
    utf8Bytes s.content = utf8Bytes t.content ↔ s.toMicrosecond = t.toMicrosecond := by
  constructor
  · intro h
    have hcontent : s.content = t.content := by
      have hread := Wire.utf8?_utf8Bytes s.content
      rw [h, Wire.utf8?_utf8Bytes] at hread
      exact (Option.some.inj hread).symm
    have hread := read?_content hs
    rw [hcontent, read?_content ht] at hread
    exact (Option.some.inj hread).symm
  · intro h
    rw [content, h, content]

/-- A timestamp stands between its quotes down to the microsecond, cut off and not rounded, and is
read back from there. The bytes of two timestamps are in the order of time, and they are the same
only for the same microsecond. -/
theorem literals_chronological (s t : DateTime) (hs : s.Plain) (ht : t.Plain) :
    (Value.timestamp s).literalText = "'" ++ s.content ++ "'" ∧
    Sql.literal? (Value.timestamp s).literalText = some (.string s.content) ∧
    read? s.content.toList = some s.toMicrosecond ∧
    s.toMicrosecond = { s with nanosecond := s.nanosecond - s.nanosecond % 1000 } ∧
    (utf8Bytes s.content < utf8Bytes t.content ↔ s.toMicrosecond.Before t.toMicrosecond) ∧
    (utf8Bytes s.content = utf8Bytes t.content ↔ s.toMicrosecond = t.toMicrosecond) := by
  have hcut : s.nanosecond / 1000 * 1000 = s.nanosecond - s.nanosecond % 1000 := by omega
  refine ⟨literalText_timestamp hs.year, Sql.literal?_literalText _, read?_content hs, ?_,
    utf8Bytes_content_lt_iff hs ht, content_inj hs ht⟩
  rw [toMicrosecond, hcut]

/-- A leap second at the end of a year, and the first moment of the next one. -/
theorem literals_chronological_leap :
    let s : DateTime := ⟨2016, 12, 31, 23, 59, 59, 1500000999⟩
    let t : DateTime := ⟨2017, 1, 1, 0, 0, 0, 123456789⟩
    s.Plain ∧ t.Plain ∧ (Value.timestamp s).literalText = "'2016-12-31 23:59:60.500'" ∧
      (Value.timestamp t).literalText = "'2017-01-01 00:00:00.123456'" ∧
      read? s.content.toList = some ⟨2016, 12, 31, 23, 59, 59, 1500000000⟩ ∧
      s.toMicrosecond.Before t.toMicrosecond := by
  intro s t
  have hs : s.Plain := ⟨by decide, by decide, Or.inr rfl⟩
  have ht : t.Plain := ⟨by decide, by decide, Or.inl (by decide)⟩
  obtain ⟨-, -, hread, -, horder, -⟩ := literals_chronological s t hs ht
  have hcut : s.toMicrosecond = ⟨2016, 12, 31, 23, 59, 59, 1500000000⟩ := by decide
  rw [hcut] at hread
  have hless : utf8Bytes s.content < utf8Bytes t.content := by decide +kernel
  exact ⟨hs, ht, by decide +kernel, by decide +kernel, hread, horder.mp hless⟩

end RowStore.DateTime
