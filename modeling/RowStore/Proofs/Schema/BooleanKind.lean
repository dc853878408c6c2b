import Mathlib
import RowStore.Proofs.Infix
import RowStore.Proofs.Schema.DeclaredType
import RowStore.Proofs.Schema.Description

/-!
# Truth values in schemas and in rows

The schema of a table calls a column boolean by what occurs in its declared type, and rows are read
as truth values by the type's word and width. The two rules part where another type than those of
truth values has the width one, and where a `tinyint` has another width.
-/

namespace RowStore

open Sql (isLetters)
open Text (isAsciiDigit digitsValue)

/-! ## What occurs in a declared type -/

def textWords : List String := ["text", "char", "lob", "binary"]

/-- True of a type that holds texts or bytes, by the words in it. -/
def HoldsText (cs : List Char) : Prop := ∃ w ∈ textWords, w.toList <:+: lowered cs

/-- No word of a type of texts or bytes, and `tinyint` in front or the width one anywhere. -/
def LooksBoolean (cs : List Char) : Prop :=
  ¬ HoldsText cs ∧ ("tinyint".toList <+: lowered cs ∨ "(1)".toList <:+: lowered cs)

instance : DecidablePred HoldsText := fun cs =>
  inferInstanceAs (Decidable (∃ w ∈ textWords, w.toList <:+: lowered cs))

instance : DecidablePred LooksBoolean := fun cs =>
  inferInstanceAs (Decidable (¬ HoldsText cs ∧
    ("tinyint".toList <+: lowered cs ∨ "(1)".toList <:+: lowered cs)))

theorem kind?_eq_boolean_iff (d : ColumnDescription) :
    d.kind? = some .boolean ↔ LooksBoolean d.declared.toList := by
  have hwords : ∀ cs, HoldsText cs ↔
      ("text".toList <:+: lowered cs ∨ "char".toList <:+: lowered cs) ∨
        ("lob".toList <:+: lowered cs ∨ "binary".toList <:+: lowered cs) := by
    simp [HoldsText, textWords, or_assoc]
  rw [LooksBoolean, hwords]
  simp only [ColumnDescription.kind?, Bool.or_eq_true, Text.occursIn_iff,
    List.isPrefixOf_iff_prefix]
  -- The rules in their order. Only the third of them gives a boolean.
  split
  · rename_i htext
    exact ⟨fun h => (by cases h), fun h => absurd (Or.inl htext) h.1⟩
  split
  · rename_i hbinary
    exact ⟨fun h => (by cases h), fun h => absurd (Or.inr hbinary) h.1⟩
  split
  · rename_i htext hbinary hboolean
    exact ⟨fun _ => ⟨not_or.mpr ⟨htext, hbinary⟩, hboolean⟩, fun _ => rfl⟩
  · rename_i hboolean
    refine ⟨fun h => ?_, fun h => absurd h.2 hboolean⟩
    split at h
    · cases h
    · split at h <;> cases h

/-! ## Types as a server describes them -/

/-- Words such as `unsigned`, each after a space. -/
def attributeChars (attributes : List String) : List Char :=
  attributes.flatMap fun a => ' ' :: a.toList

namespace DeclaredType

def described (t : DeclaredType) (attributes : List String) : String :=
  t.text ++ String.ofList (attributeChars attributes)

theorem toList_described (t : DeclaredType) (attributes : List String) :
    (t.described attributes).toList =
      t.base.toList ++ (widthChars t.width ++ attributeChars attributes) := by
  simp [described, text]

end DeclaredType

open DeclaredType (widthChars)

theorem head?_behind_word (width : Option Nat) (attributes : List String) :
    ∀ c ∈ (widthChars width ++ attributeChars attributes).head?, c = '(' ∨ c = ' ' := by
  intro c hc
  rcases width with _ | n
  · rcases attributes with _ | ⟨a, as⟩
    · cases hc
    · exact Or.inr (Option.some.inj hc).symm
  · exact Or.inl (Option.some.inj hc).symm

theorem infix_attributes_iff {w : List Char} (hne : w ≠ []) (hspace : ' ' ∉ w) (cs : List Char)
    (attributes : List String) : w <:+: lowered (cs ++ attributeChars attributes) ↔
      w <:+: lowered cs ∨ ∃ a ∈ attributes, w <:+: lowered a.toList := by
  induction attributes generalizing cs with
  | nil => simp [attributeChars]
  | cons a as ih =>
    have hcons : cs ++ attributeChars (a :: as) = (cs ++ ' ' :: a.toList) ++ attributeChars as := by
      simp [attributeChars]
    have hlower : lowered (cs ++ ' ' :: a.toList) = lowered cs ++ ' ' :: lowered a.toList := by
      rw [lowered_append, lowered_cons]
      rfl
    rw [hcons, ih, hlower, infix_append_cons hne hspace, or_assoc]
    simp only [List.mem_cons, exists_eq_or_imp]

theorem lowered_of_allDigits {ds : List Char} (h : ∀ d ∈ ds, isAsciiDigit d = true) :
    lowered ds = ds := by
  have heq : ∀ d ∈ ds, d.toLower = id d := by
    intro d hd
    apply Char.toLower_eq_of_not_isUpper
    have hdigit := (isAsciiDigit_iff d).mp (h d hd)
    simp only [Char.isUpper, decide_eq_true_eq, not_and]
    intro hge hle
    have hge : 65 ≤ d.toNat := hge
    omega
  rw [lowered, List.map_congr_left heq, List.map_id]

theorem lowered_widthChars (width : Option Nat) :
    lowered (widthChars width) = widthChars width := by
  cases width with
  | none => rfl
  | some n =>
    unfold widthChars
    rw [lowered_cons, lowered_append, lowered_of_allDigits (isDigits_natChars n).2]
    rfl

theorem infix_width_iff {w : List Char} (hne : w ≠ []) (hw : AllAlpha w) (cs : List Char)
    (width : Option Nat) : w <:+: cs ++ widthChars width ↔ w <:+: cs := by
  cases width with
  | none => rw [widthChars, List.append_nil]
  | some n =>
    have hopen : '(' ∉ w := fun h => absurd (hw _ h) (by decide)
    have hclose : ')' ∉ w := fun h => absurd (hw _ h) (by decide)
    -- No letter stands in the number in parentheses.
    have hdigits : ¬ w <:+: natChars n := by
      intro h
      obtain ⟨c, w, rfl⟩ := List.exists_cons_of_ne_nil hne
      have hdigit := (isDigits_natChars n).2 c (h.subset List.mem_cons_self)
      have halpha := hw c List.mem_cons_self
      rw [isAsciiDigit_iff] at hdigit
      rw [Sql.isAlpha_iff] at halpha
      omega
    rw [widthChars, infix_append_cons hne hopen, infix_append_cons hne hclose]
    simp [hdigits, hne]

theorem infix_one_iff {base : List Char} (hbase : '(' ∉ base) (width : Option Nat)
    {rest : List Char} (hrest : '(' ∉ rest) :
    "(1)".toList <:+: base ++ (widthChars width ++ rest) ↔ width = some 1 := by
  cases width with
  | none =>
    have hnone : '(' ∉ base ++ (widthChars none ++ rest) := by simp [widthChars, hbase, hrest]
    exact ⟨fun h => absurd (h.subset (by decide)) hnone, fun h => by cases h⟩
  | some n =>
    have hdigit : ∀ c ∈ natChars n, c ≠ '(' ∧ c ≠ ')' := by
      intro c hc
      have hd := (isDigits_natChars n).2 c hc
      constructor <;> (rintro rfl; revert hd; decide)
    have hinner : '(' ∉ natChars n ++ [')'] ++ rest := by
      simpa [hrest] using fun h => (hdigit _ h).1 rfl
    constructor
    · rintro ⟨front, back, heq⟩
      have hsplit : front ++ '(' :: ('1' :: ')' :: back) =
          base ++ '(' :: (natChars n ++ [')'] ++ rest) := by
        simpa [widthChars] using heq
      -- The parenthesis that was found is the one of the width, since there is no other.
      have hnumber := ((List.append_cons_inj_of_notMem hbase hinner).mp hsplit.symm).2.2
      have hone : natChars n = ['1'] := by
        cases hn : natChars n with
        | nil => exact absurd hn (isDigits_natChars n).1
        | cons c ds =>
          rw [hn, List.append_assoc, List.cons_append] at hnumber
          obtain ⟨rfl, htail⟩ := List.cons.inj hnumber
          cases ds with
          | nil => rfl
          | cons d ds =>
            have hd : d = ')' := (List.cons.inj htail).1
            exact absurd hd (hdigit d (by simp [hn])).2
      have hvalue := congrArg digitsValue hone
      rw [digitsValue_natChars] at hvalue
      rw [hvalue]
      rfl
    · rintro h
      cases h
      exact ⟨base, rest, by simp [widthChars]; rfl⟩

theorem prefix_word_iff {w base after : List Char} (hw : AllAlpha w)
    (hafter : ∀ c ∈ after.head?, c.isAlpha = false) : w <+: base ++ after ↔ w <+: base := by
  constructor
  · intro h
    rcases List.prefix_or_prefix_of_prefix h (List.prefix_append base after) with hshort | hlong
    · exact hshort
    · obtain ⟨t, rfl⟩ := hlong
      rw [List.prefix_append_right_inj] at h
      cases t with
      | nil => simp
      | cons c t =>
        obtain ⟨rest, rfl⟩ := h
        have halpha := hw c (by simp)
        rw [hafter c (by simp)] at halpha
        cases halpha
  · intro h
    exact h.trans (List.prefix_append base after)

/-! ## Where the two rules agree -/

theorem AllAlpha.lowered {cs : List Char} (h : AllAlpha cs) : AllAlpha (lowered cs) := by
  intro c hc
  obtain ⟨d, hd, rfl⟩ := List.mem_map.mp hc
  rw [Char.isAlpha_toLower_eq_isAlpha]
  exact h d hd

theorem AllAlpha.notMem {cs : List Char} (h : AllAlpha cs) {c : Char} (hc : c.isAlpha = false) :
    c ∉ cs := by
  intro hmem
  rw [h c hmem] at hc
  cases hc

theorem isLetters_of_textWord : ∀ w ∈ textWords, isLetters w.toList = true := by decide

theorem not_holdsText_of_truthType {cs : List Char}
    (h : String.ofList (cs.map Char.toUpper) ∈ Column.truthTypes) : ¬ HoldsText cs := by
  have hupper : lowered (cs.map Char.toUpper) = lowered cs := by
    simp [lowered, Char.toLower_toUpper_eq_toLower]
  have hnone : ∀ type ∈ Column.truthTypes, ¬ HoldsText type.toList := by decide
  have hcs := hnone _ h
  rwa [String.toList_ofList, HoldsText, hupper] at hcs

namespace DeclaredType

/-- The type and what stands behind it are words, and none of those behind it is one of texts or
bytes. -/
structure Plain (t : DeclaredType) (attributes : List String) : Prop where
  base : isLetters t.base.toList = true
  attributes : ∀ a ∈ attributes, isLetters a.toList = true ∧ ¬ HoldsText a.toList

variable {t : DeclaredType} {attributes : List String}

theorem Plain.notMem_attributes (h : Plain t attributes) :
    '(' ∉ lowered (attributeChars attributes) := by
  intro hmem
  obtain ⟨c, hc, hlower⟩ := List.mem_map.mp hmem
  obtain ⟨a, ha, hca⟩ := List.mem_flatMap.mp hc
  rcases List.mem_cons.mp hca with rfl | hca
  · revert hlower
    decide
  · have hletter := ((isLetters_iff _).mp (h.attributes a ha).1).2.lowered
    exact hletter.notMem (by decide) (List.mem_map.mpr ⟨c, hca, hlower⟩)

theorem Plain.holdsText_iff (h : Plain t attributes) :
    HoldsText (t.described attributes).toList ↔ HoldsText t.base.toList := by
  refine exists_congr fun w => and_congr_right fun hw => ?_
  obtain ⟨hne, halpha⟩ := (isLetters_iff _).mp (isLetters_of_textWord w hw)
  have hspace : ' ' ∉ w.toList := halpha.notMem (by decide)
  rw [toList_described, ← List.append_assoc, infix_attributes_iff hne hspace, lowered_append,
    lowered_widthChars, infix_width_iff hne halpha]
  constructor
  · rintro (hbase | ⟨a, ha, hin⟩)
    · exact hbase
    · exact absurd ⟨w, hw, hin⟩ (h.attributes a ha).2
  · exact Or.inl

theorem Plain.looksBoolean_iff (h : Plain t attributes) :
    LooksBoolean (t.described attributes).toList ↔ ¬ HoldsText t.base.toList ∧
      ("tinyint".toList <+: lowered t.base.toList ∨ t.width = some 1) := by
  have hbase := ((isLetters_iff _).mp h.base).2
  have hafter : ∀ c ∈ (widthChars t.width ++ lowered (attributeChars attributes)).head?,
      c.isAlpha = false := by
    intro c hc
    rw [← lowered_widthChars, ← lowered_append, lowered, List.head?_map] at hc
    obtain ⟨d, hd, rfl⟩ := Option.map_eq_some_iff.mp hc
    rcases head?_behind_word t.width attributes d hd with rfl | rfl <;> decide
  have hword : AllAlpha "tinyint".toList := ((isLetters_iff _).mp (by decide)).2
  rw [LooksBoolean, h.holdsText_iff, toList_described, lowered_append, lowered_append,
    lowered_widthChars, prefix_word_iff hword hafter,
    infix_one_iff (hbase.lowered.notMem (by decide)) t.width h.notMem_attributes]

theorem Plain.holdsTruth_iff (h : Plain t attributes) (name : String) :
    (Column.ofDeclared name (t.described attributes)).holdsTruth = true ↔
      t.width = some 1 ∧ String.ofList (t.base.toList.map Char.toUpper) ∈ Column.truthTypes := by
  obtain ⟨hne, hbase⟩ := (isLetters_iff _).mp h.base
  have hafter : ∀ c ∈ (widthChars t.width ++ attributeChars attributes).head?,
      c.isAlpha = false := by
    intro c hc
    rcases head?_behind_word t.width attributes c hc with rfl | rfl <;> decide
  have hcolumn := Column.ofDeclared_eq name (a := []) (by simp [AllBlank]) hne hbase hafter
  rw [List.nil_append, ← toList_described, String.ofList_toList] at hcolumn
  rw [hcolumn, Column.holdsTruth_iff]
  refine and_congr_left fun _ => ?_
  cases hwidth : t.width with
  | none =>
    have hopen : '(' ∉ attributeChars attributes := fun hmem =>
      h.notMem_attributes (List.mem_map_of_mem hmem)
    rw [widthChars, List.nil_append, Column.lengthDigits?_of_notMem hopen]
    rfl
  | some n =>
    have hdigits : Column.lengthDigits? (widthChars (some n) ++ attributeChars attributes) =
        some (natChars n) :=
      Column.lengthDigits?_eq_some_iff.mpr ⟨isDigits_natChars n, [], [], [],
        attributeChars attributes, by simp [AllBlank], by simp [AllBlank], by simp [AllBlank],
        by simp [widthChars]⟩
    rw [hdigits, Column.bind_width?_eq_one_iff]
    simp [digitsValue_natChars]

end DeclaredType

/-- The kind in a schema goes by what occurs in the declared type, the cells in a row by its word
and width. They agree on a plain type exactly when it is one of texts or bytes, or one of truth
values with the width one, or has another width and no `tinyint` in front. -/
theorem boolean_columns (table name declared nullable : String) :
    ((∃ f, Schema.ofDescription table [⟨name, declared, nullable⟩] = .ok ⟨table, [f]⟩ ∧
      f.kind = .boolean) ↔ LooksBoolean declared.toList) ∧
    (∀ columns s, Schema.ofDescription table columns = .ok s →
      List.Forall₂ (fun d f => f.kind = .boolean ↔ LooksBoolean d.declared.toList)
        columns s.fields) ∧
    (∀ cell, (Column.ofDeclared name declared).truth cell ≠ .notApplicable ↔
      Column.DeclaresTruth declared.toList) ∧
    ∀ (t : DeclaredType) attributes, t.Plain attributes → declared = t.described attributes →
      ((LooksBoolean declared.toList ↔ Column.DeclaresTruth declared.toList) ↔
        HoldsText t.base.toList ∨
          if t.width = some 1 then
            String.ofList (t.base.toList.map Char.toUpper) ∈ Column.truthTypes
          else ¬ "tinyint".toList <+: lowered t.base.toList) := by
  have hfield : ∀ d : ColumnDescription, ∀ f, d.toField = .ok f →
      (f.kind = .boolean ↔ LooksBoolean d.declared.toList) := by
    intro d f hf
    obtain ⟨kind, hkind, rfl⟩ := toField_eq_ok.mp hf
    rw [← kind?_eq_boolean_iff, hkind, Option.some_inj]
  refine ⟨?_, ?_, ?_, ?_⟩
  · constructor
    · rintro ⟨f, hf, hkind⟩
      have hcolumn := (ofDescription_eq_ok.mp hf).2
      rw [List.forall₂_cons] at hcolumn
      exact (hfield _ f hcolumn.1).mp hkind
    · intro h
      have hkind := (kind?_eq_boolean_iff ⟨name, declared, nullable⟩).mpr h
      exact ⟨_, ofDescription_eq_ok.mpr ⟨rfl, .cons (toField_eq_ok.mpr ⟨_, hkind, rfl⟩) .nil⟩, rfl⟩
  · intro columns s h
    exact (ofDescription_eq_ok.mp h).2.imp hfield
  · intro cell
    rw [ne_eq, Column.truth_eq_notApplicable_iff, Bool.not_eq_false,
      Column.holdsTruth_ofDeclared_iff]
  · rintro t attributes h rfl
    rw [h.looksBoolean_iff, ← Column.holdsTruth_ofDeclared_iff name, h.holdsTruth_iff]
    -- A type of texts is boolean on neither side.
    rcases Classical.em (HoldsText t.base.toList) with htext | htext
    · have htype := mt not_holdsText_of_truthType (not_not.mpr htext)
      exact iff_of_true (iff_of_false (fun h => h.1 htext) fun h => htype h.2) (Or.inl htext)
    · by_cases hwidth : t.width = some 1
      · simp only [htext, hwidth, not_false_eq_true, or_true, and_self, true_and, true_iff,
          false_or, reduceIte]
      · simp only [htext, hwidth, not_false_eq_true, or_false, true_and, false_and, iff_false,
          false_or, reduceIte]

theorem boolean_columns_tinyint :
    ¬ (LooksBoolean "tinyint(4) unsigned".toList ↔
      Column.DeclaresTruth "tinyint(4) unsigned".toList) := by
  have hplain : DeclaredType.Plain ⟨"tinyint", some 4⟩ ["unsigned"] := ⟨by decide, by decide⟩
  have hagree := (boolean_columns "t" "a" "tinyint(4) unsigned" "YES").2.2.2
    ⟨"tinyint", some 4⟩ ["unsigned"] hplain rfl
  exact mt hagree.mp (by decide)

/-- Columns that are boolean in the schema, with cells that are read as numbers and times, and one
that is an integer there, with cells that are read as truth values. -/
theorem boolean_columns_disagree :
    Schema.ofDescription "t" [⟨"a", "datetime(1)", "YES"⟩, ⟨"b", "bigint(1)", "YES"⟩,
      ⟨"c", "tinyint(4)", "YES"⟩, ⟨"d", "int( 1 )", "YES"⟩] =
        .ok ⟨"t", [⟨"a", .boolean, none, false⟩, ⟨"b", .boolean, none, false⟩,
          ⟨"c", .boolean, none, false⟩, ⟨"d", .integer, none, false⟩]⟩ ∧
      (Column.ofDeclared "a" "datetime(1)").holdsTruth = false ∧
      (Column.ofDeclared "b" "bigint(1)").holdsTruth = false ∧
      (Column.ofDeclared "c" "tinyint(4)").holdsTruth = false ∧
      (Column.ofDeclared "d" "int( 1 )").holdsTruth = true := by
  refine ⟨rfl, ?_⟩
  decide

end RowStore
