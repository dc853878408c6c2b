import Mathlib.Data.List.Basic
import RowStore.Json.Printer
import RowStore.Text.Choice
import RowStore.Text.Hex

/-!
# Numerals

The texts of numbers in every layout: digits, perhaps a fraction, perhaps an exponent, and perhaps
a minus in front of all.
-/

namespace RowStore

open Text (isAsciiDigit isBlank)

def IsDigits (ds : List Char) : Prop := ds ≠ [] ∧ ∀ d ∈ ds, isAsciiDigit d = true

/-- Nothing, or a point and digits. -/
def IsFraction (cs : List Char) : Prop := cs = [] ∨ ∃ ds, IsDigits ds ∧ cs = '.' :: ds

/-- Nothing, or the letter, perhaps a sign, and digits. -/
def IsExponent (cs : List Char) : Prop :=
  cs = [] ∨ ∃ sign ds, sign ∈ [[], ['+'], ['-']] ∧ IsDigits ds ∧ cs = 'e' :: (sign ++ ds)

/-- A number without a sign. -/
def IsNumeral (cs : List Char) : Prop :=
  ∃ whole fraction exponent, IsDigits whole ∧ IsFraction fraction ∧ IsExponent exponent ∧
    cs = whole ++ (fraction ++ exponent)

def IsSignedNumeral (cs : List Char) : Prop := IsNumeral cs ∨ ∃ ds, IsNumeral ds ∧ cs = '-' :: ds

/-! ## Runs of digits -/

theorem span_append {α : Type} (p : α → Bool) (xs rest : List α) (hx : ∀ x ∈ xs, p x = true)
    (hr : ∀ x ∈ rest.head?, p x = false) :
    (xs ++ rest).takeWhile p = xs ∧ (xs ++ rest).dropWhile p = rest := by
  rw [List.takeWhile_append_of_pos hx, List.dropWhile_append_of_pos hx]
  cases rest with
  | nil => simp
  | cons x rest =>
    have hp : p x = false := hr x rfl
    simp [hp]

theorem isAsciiDigit_iff (c : Char) : isAsciiDigit c = true ↔ 48 ≤ c.toNat ∧ c.toNat ≤ 57 := by
  simp [isAsciiDigit]

theorem isBlank_of_isAsciiDigit {c : Char} (h : isAsciiDigit c = true) : isBlank c = false := by
  rw [isAsciiDigit_iff] at h
  simp [isBlank, Text.blankCodePoints]
  omega

theorem isDigits_append (cs ds : List Char) (hc : IsDigits cs)
    (hd : ∀ d ∈ ds, isAsciiDigit d = true) : IsDigits (cs ++ ds) := by
  refine ⟨by simp [hc.1], ?_⟩
  intro d h
  rcases List.mem_append.mp h with h | h
  · exact hc.2 d h
  · exact hd d h

theorem isDigits_natChars (n : Nat) : IsDigits (natChars n) := by
  refine ⟨Nat.toDigits_ne_nil, ?_⟩
  intro d hd
  have hdigit : d.isDigit = true := Nat.isDigit_of_mem_toDigits (by decide) (by decide) hd
  simpa [Char.isDigit, isAsciiDigit, UInt32.le_iff_toNat_le] using hdigit

theorem isNumeral_of_isDigits (ds : List Char) (h : IsDigits ds) : IsNumeral ds :=
  ⟨ds, [], [], h, Or.inl rfl, Or.inl rfl, by simp⟩

theorem exists_digit_cons_of_isNumeral (cs : List Char) (h : IsNumeral cs) :
    ∃ c ds, cs = c :: ds ∧ isAsciiDigit c = true := by
  obtain ⟨whole, fraction, exponent, ⟨hne, hdigit⟩, -, -, rfl⟩ := h
  obtain ⟨c, ds, rfl⟩ := List.exists_cons_of_ne_nil hne
  exact ⟨c, ds ++ (fraction ++ exponent), rfl, hdigit c List.mem_cons_self⟩

theorem isNumeral_natText (n : Nat) : IsNumeral (natText n).toList := by
  rw [natText, String.toList_ofList]
  exact isNumeral_of_isDigits _ (isDigits_natChars n)

theorem isSignedNumeral_intText (i : Int) : IsSignedNumeral (intText i).toList := by
  rw [intText, String.toList_ofList]
  cases i with
  | ofNat n => exact Or.inl (isNumeral_of_isDigits _ (isDigits_natChars n))
  | negSucc n =>
    exact Or.inr ⟨natChars (n + 1), isNumeral_of_isDigits _ (isDigits_natChars _), rfl⟩

/-! ## Layouts -/

theorem all_replicate_zero (n : Nat) : ∀ d ∈ List.replicate n '0', isAsciiDigit d = true := by
  intro d hd
  rw [List.eq_of_mem_replicate hd]
  decide

theorem isDigits_take (ds : List Char) (n : Nat) (h : IsDigits ds) (hn : 0 < n) :
    IsDigits (ds.take n) := by
  refine ⟨?_, fun d hd => h.2 d (List.mem_of_mem_take hd)⟩
  rw [ne_eq, List.take_eq_nil_iff, not_or]
  exact ⟨by omega, h.1⟩

theorem isDigits_drop (ds : List Char) (n : Nat) (h : IsDigits ds) (hn : n < ds.length) :
    IsDigits (ds.drop n) := by
  refine ⟨?_, fun d hd => h.2 d (List.mem_of_mem_drop hd)⟩
  rw [ne_eq, List.drop_eq_nil_iff]
  omega

theorem isDigits_zero : IsDigits ['0'] := by
  refine ⟨by simp, ?_⟩
  intro d hd
  rw [List.mem_singleton.mp hd]
  rfl

theorem isFraction_pointZero (layout : FloatLayout) :
    IsFraction (if layout.pointZero then ['.', '0'] else []) := by
  split
  · exact Or.inr ⟨['0'], isDigits_zero, rfl⟩
  · exact Or.inl rfl

theorem isNumeral_positionalChars (layout : FloatLayout) (ds : List Char) (k : Int)
    (h : IsDigits ds) : IsNumeral (Decimal.positionalChars layout ds k) := by
  unfold Decimal.positionalChars
  split
  · exact ⟨ds ++ List.replicate k.toNat '0', _, [], isDigits_append _ _ h (all_replicate_zero _),
      isFraction_pointZero layout, Or.inl rfl, by simp⟩
  · simp only
    have hplaces : 0 < (-k).toNat := by omega
    split
    · exact ⟨ds.take (ds.length - (-k).toNat), '.' :: ds.drop (ds.length - (-k).toNat), [],
        isDigits_take _ _ h (by omega), Or.inr ⟨_, isDigits_drop _ _ h (by omega), rfl⟩,
        Or.inl rfl, by simp⟩
    · refine ⟨['0'], '.' :: (List.replicate ((-k).toNat - ds.length) '0' ++ ds), [],
        isDigits_zero, Or.inr ⟨_, ⟨by simp [h.1], ?_⟩, rfl⟩, Or.inl rfl, by simp⟩
      intro d hd
      rcases List.mem_append.mp hd with hd | hd
      · exact all_replicate_zero _ d hd
      · exact h.2 d hd

theorem isExponent_intChars (layout : FloatLayout) (e : Int) :
    IsExponent ('e' :: ((if layout.plusSign && 0 ≤ e then ['+'] else []) ++ intChars e)) := by
  cases e with
  | ofNat n =>
    refine Or.inr ⟨if layout.plusSign then ['+'] else [], natChars n, ?_, isDigits_natChars n, ?_⟩
    · split <;> simp
    · simp [intChars]
  | negSucc n =>
    refine Or.inr ⟨['-'], natChars (n + 1), by simp, isDigits_natChars _, ?_⟩
    have hneg : ¬ 0 ≤ Int.negSucc n := by omega
    simp [intChars, hneg]

theorem isNumeral_scientificChars (layout : FloatLayout) (ds : List Char) (e : Int)
    (h : IsDigits ds) : IsNumeral (Decimal.scientificChars layout ds e) := by
  refine ⟨ds.take 1, (if ds.length ≤ 1 then [] else ['.']) ++ ds.drop 1, _,
    isDigits_take _ _ h (by omega), ?_, isExponent_intChars layout e, ?_⟩
  · split
    · rename_i hone
      exact Or.inl (by rw [List.nil_append, List.drop_eq_nil_iff]; exact hone)
    · exact Or.inr ⟨ds.drop 1, isDigits_drop _ _ h (by omega), rfl⟩
  · simp [Decimal.scientificChars]

theorem isNumeral_decimal (layout : FloatLayout) (d : Decimal) : IsNumeral (d.chars layout) := by
  simp only [Decimal.chars]
  split
  · exact isNumeral_positionalChars layout _ _ (isDigits_natChars _)
  · exact isNumeral_scientificChars layout _ _ (isDigits_natChars _)

theorem isSignedNumeral_float (layout : FloatLayout) (x : Binary64) :
    IsSignedNumeral (x.text layout).toList := by
  have sign : ∀ cs, IsNumeral cs → IsSignedNumeral ((if x.negative then ['-'] else []) ++ cs) := by
    intro cs h
    split
    · exact Or.inr ⟨cs, h, rfl⟩
    · exact Or.inl h
  rw [Binary64.text, String.toList_ofList]
  simp only [Binary64.chars]
  split
  · exact sign _ ⟨['0'], _, [], isDigits_zero, isFraction_pointZero layout, Or.inl rfl,
      by simp⟩
  · exact sign _ (isNumeral_decimal layout _)

theorem isSignedNumeral_json (n : Json.Number) : IsSignedNumeral n.text.toList := by
  cases n with
  | int i => exact isSignedNumeral_intText i
  | float x => exact isSignedNumeral_float .json x

end RowStore
