import Mathlib
import RowStore.Proofs.Calendar.Reading
import RowStore.Proofs.Sql.Buffer

/-!
# Numbers in order

Texts are compared where they first differ. For numbers of equally many digits this is the order of
the numbers, and bytes of ASCII characters compare as the characters do.
-/

namespace RowStore

open Sql (utf8Bytes_cons utf8EncodeChar_of_lt)
open Text (digitsValue isAsciiDigit utf8Bytes)

/-! ## Texts with parts of the same length -/

theorem append_lt_append_iff {α : Type} [LinearOrder α] {a b c d : List α}
    (h : a.length = b.length) : a ++ c < b ++ d ↔ a < b ∨ a = b ∧ c < d := by
  induction a generalizing b with
  | nil =>
    obtain rfl := List.length_eq_zero_iff.mp h.symm
    simp
  | cons x a ih =>
    obtain ⟨y, b, rfl⟩ := List.exists_cons_of_length_eq_add_one h.symm
    have hlength : a.length = b.length := Nat.succ_injective h
    simp only [List.cons_append, List.cons_lt_cons_iff, ih hlength, List.cons.injEq]
    tauto

/-! ## Digits -/

theorem digitsValue_cons (c : Char) (cs : List Char) :
    digitsValue (c :: cs) = (c.toNat - 48) * 10 ^ cs.length + digitsValue cs := by
  have hone : digitsValue [c] = c.toNat - 48 := by simp [digitsValue]
  rw [← List.singleton_append, digitsValue_append, hone]

theorem digitsValue_lt {cs : List Char} (h : ∀ c ∈ cs, isAsciiDigit c = true) :
    digitsValue cs < 10 ^ cs.length := by
  induction cs with
  | nil => decide
  | cons c cs ih =>
    rw [List.forall_mem_cons, isAsciiDigit_iff] at h
    have hrest := ih h.2
    have hdigit : (c.toNat - 48) * 10 ^ cs.length ≤ 9 * 10 ^ cs.length :=
      Nat.mul_le_mul_right _ (by omega)
    rw [digitsValue_cons, List.length_cons, Nat.pow_succ]
    omega

theorem digitsValue_cons_lt {c d : Char} {cs ds : List Char} (hc : isAsciiDigit c = true)
    (hcs : ∀ c ∈ cs, isAsciiDigit c = true) (h : c < d) (hlength : cs.length = ds.length) :
    digitsValue (c :: cs) < digitsValue (d :: ds) := by
  have hvalue : c.toNat < d.toNat := h
  have hless : (c.toNat - 48 + 1) * 10 ^ cs.length ≤ (d.toNat - 48) * 10 ^ cs.length := by
    have := (isAsciiDigit_iff c).mp hc
    exact Nat.mul_le_mul_right _ (by omega)
  have hrest := digitsValue_lt hcs
  rw [Nat.succ_mul] at hless
  rw [digitsValue_cons, digitsValue_cons, ← hlength]
  omega

theorem digits_lt_iff {cs ds : List Char} (hcs : ∀ c ∈ cs, isAsciiDigit c = true)
    (hds : ∀ d ∈ ds, isAsciiDigit d = true) (hlength : cs.length = ds.length) :
    cs < ds ↔ digitsValue cs < digitsValue ds := by
  induction cs generalizing ds with
  | nil =>
    obtain rfl := List.length_eq_zero_iff.mp hlength.symm
    simp
  | cons c cs ih =>
    obtain ⟨d, ds, rfl⟩ := List.exists_cons_of_length_eq_add_one hlength.symm
    have hrest : cs.length = ds.length := Nat.succ_injective hlength
    rw [List.forall_mem_cons] at hcs hds
    rw [List.cons_lt_cons_iff]
    rcases lt_trichotomy c d with h | rfl | h
    · exact iff_of_true (Or.inl h) (digitsValue_cons_lt hcs.1 hcs.2 h hrest)
    · rw [digitsValue_cons, digitsValue_cons, hrest, Nat.add_lt_add_iff_left, ← ih hcs.2 hds.2 hrest]
      simp
    · have hless := digitsValue_cons_lt hds.1 hds.2 h hrest.symm
      refine iff_of_false ?_ (Nat.lt_asymm hless)
      rintro (h' | ⟨rfl, -⟩)
      · exact lt_asymm h h'
      · exact lt_irrefl c h

theorem digitsValue_inj {cs ds : List Char} (hcs : ∀ c ∈ cs, isAsciiDigit c = true)
    (hds : ∀ d ∈ ds, isAsciiDigit d = true) (hlength : cs.length = ds.length)
    (h : digitsValue cs = digitsValue ds) : cs = ds := by
  rcases lt_trichotomy cs ds with hless | heq | hless
  · exact absurd ((digits_lt_iff hcs hds hlength).mp hless) (by omega)
  · exact heq
  · exact absurd ((digits_lt_iff hds hcs hlength.symm).mp hless) (by omega)

/-! ## Padded numbers -/

section

variable {width m n : Nat} (hwidth : 0 < width) (hm : m < 10 ^ width) (hn : n < 10 ^ width)
include hwidth hm hn

theorem paddedChars_lt_iff : paddedChars width m < paddedChars width n ↔ m < n := by
  have hlength : (paddedChars width m).length = (paddedChars width n).length := by
    rw [length_paddedChars hwidth hm, length_paddedChars hwidth hn]
  rw [digits_lt_iff (isDigits_paddedChars width m).2 (isDigits_paddedChars width n).2 hlength,
    digitsValue_paddedChars, digitsValue_paddedChars]

theorem paddedChars_append_lt_iff (cs ds : List Char) :
    paddedChars width m ++ cs < paddedChars width n ++ ds ↔ m < n ∨ m = n ∧ cs < ds := by
  have hlength : (paddedChars width m).length = (paddedChars width n).length := by
    rw [length_paddedChars hwidth hm, length_paddedChars hwidth hn]
  have heq : paddedChars width m = paddedChars width n ↔ m = n := by
    refine ⟨fun h => ?_, fun h => h ▸ rfl⟩
    rw [← digitsValue_paddedChars width m, h, digitsValue_paddedChars]
  rw [append_lt_append_iff hlength, paddedChars_lt_iff hwidth hm hn, heq]

end

theorem paddedChars_append {v w m n : Nat} (hv : 0 < v) (hw : 0 < w) (hm : m < 10 ^ v)
    (hn : n < 10 ^ w) :
    paddedChars v m ++ paddedChars w n = paddedChars (v + w) (m * 10 ^ w + n) := by
  have hvalue : m * 10 ^ w + n < 10 ^ (v + w) := by
    calc m * 10 ^ w + n < m * 10 ^ w + 10 ^ w := by omega
      _ = (m + 1) * 10 ^ w := (Nat.succ_mul m _).symm
      _ ≤ 10 ^ v * 10 ^ w := Nat.mul_le_mul_right _ hm
      _ = 10 ^ (v + w) := (Nat.pow_add 10 v w).symm
  have hlength := length_paddedChars hw hn
  -- As many digits on both sides, and the same value.
  refine digitsValue_inj ?_ (isDigits_paddedChars _ _).2 ?_ ?_
  · intro d hd
    rcases List.mem_append.mp hd with hd | hd
    · exact (isDigits_paddedChars v m).2 d hd
    · exact (isDigits_paddedChars w n).2 d hd
  · rw [List.length_append, length_paddedChars hv hm, hlength,
      length_paddedChars (by omega) hvalue]
  · rw [digitsValue_append, hlength, digitsValue_paddedChars, digitsValue_paddedChars,
      digitsValue_paddedChars]

/-! ## Bytes -/

theorem utf8Bytes_lt_iff {cs ds : List Char} (hcs : ∀ c ∈ cs, c.toNat < 128)
    (hds : ∀ d ∈ ds, d.toNat < 128) :
    utf8Bytes (String.ofList cs) < utf8Bytes (String.ofList ds) ↔ cs < ds := by
  induction cs generalizing ds with
  | nil =>
    cases ds with
    | nil => simp
    | cons d ds =>
      rw [List.forall_mem_cons] at hds
      rw [utf8Bytes_cons, utf8EncodeChar_of_lt hds.1]
      exact iff_of_true (List.nil_lt_cons _ _) (List.nil_lt_cons _ _)
  | cons c cs ih =>
    rw [List.forall_mem_cons] at hcs
    rw [utf8Bytes_cons, utf8EncodeChar_of_lt hcs.1, List.singleton_append]
    cases ds with
    | nil => exact iff_of_false (List.not_lt_nil _) (List.not_lt_nil _)
    | cons d ds =>
      rw [List.forall_mem_cons] at hds
      -- Characters of this size are bytes of their own.
      have hbyte (c : Char) (hc : c.toNat < 128) : (UInt8.ofNat c.toNat).toNat = c.toNat := by
        rw [UInt8.toNat_ofNat']
        omega
      have hless : UInt8.ofNat c.toNat < UInt8.ofNat d.toNat ↔ c < d := by
        rw [UInt8.lt_iff_toNat_lt, hbyte c hcs.1, hbyte d hds.1]
        rfl
      have heq : UInt8.ofNat c.toNat = UInt8.ofNat d.toNat ↔ c = d := by
        rw [← UInt8.toNat_inj, hbyte c hcs.1, hbyte d hds.1, Char.toNat_inj]
      rw [utf8Bytes_cons, utf8EncodeChar_of_lt hds.1, List.singleton_append,
        List.cons_lt_cons_iff, List.cons_lt_cons_iff, hless, heq, ih hcs.2 hds.2]

end RowStore
