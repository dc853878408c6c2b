import RowStore.Proofs.Schema.DeclaredType

/-!
# Cells of truth values

Only a column of truth values reads its cells so, a cell without a value is absent, and text and
bytes with the same content read the same. In an integer column the one content that is true is the
digit one. A bit field takes the byte one for true and any bytes that begin with it.
-/

namespace RowStore

theorem Text.utf8Bytes_inj {s t : String} : Text.utf8Bytes s = Text.utf8Bytes t ↔ s = t := by
  unfold Text.utf8Bytes
  rw [Array.toList_inj, ← ByteArray.ext_iff]
  exact String.toByteArray_inj

namespace RawCell

/-- The bytes of a cell, in whichever form it comes. -/
def content? : RawCell → Option (List UInt8)
  | .null => none
  | .text s => some (Text.utf8Bytes s)
  | .bytes content => some content

theorem content?_eq_none_iff (cell : RawCell) : cell.content? = none ↔ cell = .null := by
  cases cell <;> simp [content?]

end RawCell

namespace Column

variable (c : Column)

/-- What stands for one in the column: a byte in a bit field, a digit in an integer. -/
def one : List UInt8 := if c.typeName ∈ truthBitTypes then [1] else [49]

/-- A bit field with more bytes after its one. -/
def RunsOn (cell : RawCell) : Prop :=
  c.typeName ∈ truthBitTypes ∧ ∃ b rest, cell.content? = some (1 :: b :: rest)

/-- The contents that are true in a column of truth values. -/
def ReadsTrue (content : List UInt8) : Prop :=
  content = c.one ∨ c.typeName ∈ truthBitTypes ∧ ∃ b rest, content = 1 :: b :: rest

variable {c}

/-! ## The two kinds of columns -/

theorem truth_null (h : c.holdsTruth = true) : c.truth .null = .absent := by
  obtain ⟨hlength, htype⟩ := (holdsTruth_iff c).mp h
  rw [truthTypes, List.mem_append] at htype
  unfold truth
  by_cases hbit : c.typeName ∈ truthBitTypes
  · simp [hlength, hbit]
  · simp [hlength, hbit, htype.resolve_right hbit]

theorem truth_bit {cell : RawCell} {content : List UInt8} (h : c.holdsTruth = true)
    (hbit : c.typeName ∈ truthBitTypes) (hcell : cell.content? = some content) :
    c.truth cell = .bool (content.head? == some 1) := by
  have hlength := ((holdsTruth_iff c).mp h).1
  unfold truth
  cases cell with
  | null => cases hcell
  | text s | bytes bs =>
    obtain rfl := Option.some.inj hcell
    simp [hlength, hbit]

theorem truth_integer {cell : RawCell} {content : List UInt8} (h : c.holdsTruth = true)
    (hbit : c.typeName ∉ truthBitTypes) (hcell : cell.content? = some content) :
    c.truth cell = .bool (content == [49]) := by
  obtain ⟨hlength, htype⟩ := (holdsTruth_iff c).mp h
  have hinteger := (List.mem_append.mp htype).resolve_right hbit
  unfold truth
  cases cell with
  | null => cases hcell
  | text s =>
    obtain rfl := Option.some.inj hcell
    have hone : (s == "1") = (Text.utf8Bytes s == [49]) := by
      rw [Bool.eq_iff_iff, beq_iff_eq, beq_iff_eq, ← Text.utf8Bytes_inj]
      rfl
    simp [hlength, hbit, hinteger, hone]
  | bytes bs =>
    obtain rfl := Option.some.inj hcell
    simp [hlength, hbit, hinteger]

theorem head?_eq_one_iff (content : List UInt8) :
    content.head? = some 1 ↔ content = [1] ∨ ∃ b rest, content = 1 :: b :: rest := by
  match content with
  | [] => simp
  | [a] => simp
  | a :: b :: rest => simp

theorem truth_content {cell : RawCell} {content : List UInt8} (h : c.holdsTruth = true)
    (hcell : cell.content? = some content) :
    ∃ b, c.truth cell = .bool b ∧ (b = true ↔ c.ReadsTrue content) := by
  unfold ReadsTrue one
  by_cases hbit : c.typeName ∈ truthBitTypes
  · refine ⟨_, truth_bit h hbit hcell, ?_⟩
    rw [beq_iff_eq, head?_eq_one_iff, if_pos hbit, and_iff_right hbit]
  · refine ⟨_, truth_integer h hbit hcell, ?_⟩
    rw [beq_iff_eq, if_neg hbit, or_iff_left fun h => hbit h.1]

theorem one_ne_cons {b : UInt8} {rest : List UInt8} (hbit : c.typeName ∈ truthBitTypes) :
    1 :: b :: rest ≠ c.one := by
  rw [one, if_pos hbit]
  exact fun h => nomatch h

variable (c) in
theorem truth_text (s : String) : c.truth (.text s) = c.truth (.bytes (Text.utf8Bytes s)) := by
  cases h : c.holdsTruth with
  | false =>
    rw [(truth_eq_notApplicable_iff c _).mpr h, (truth_eq_notApplicable_iff c _).mpr h]
  | true =>
    by_cases hbit : c.typeName ∈ truthBitTypes
    · rw [truth_bit h hbit rfl, truth_bit h hbit rfl]
    · rw [truth_integer h hbit rfl, truth_integer h hbit rfl]

/-! ## All cells -/

/-- What a column makes of a cell, for each of the four outcomes. The whole content decides, except
in a bit field, where any bytes may follow the one. -/
theorem truth_cell_iff (c : Column) (cell : RawCell) :
    (c.truth cell = .notApplicable ↔ c.holdsTruth = false) ∧
    (c.truth cell = .absent ↔ c.holdsTruth = true ∧ cell = .null) ∧
    (c.truth cell = .bool true ↔
      c.holdsTruth = true ∧ (cell.content? = some c.one ∨ c.RunsOn cell)) ∧
    (c.truth cell = .bool false ↔ c.holdsTruth = true ∧ cell ≠ .null ∧
      cell.content? ≠ some c.one ∧ ¬ c.RunsOn cell) ∧
    (∀ s, c.truth (.text s) = c.truth (.bytes (Text.utf8Bytes s))) ∧
    (c.holdsTruth = true →
      ((c.truth cell = .bool true ↔ cell.content? = some c.one) ↔ ¬ c.RunsOn cell)) := by
  -- What runs on is longer than the one, so the two ways to be true exclude each other.
  have hruns : c.RunsOn cell → cell.content? ≠ some c.one := by
    rintro ⟨hbit, b, rest, hcontent⟩ hone
    exact one_ne_cons hbit (Option.some.inj (hcontent.symm.trans hone))
  refine ⟨truth_eq_notApplicable_iff c cell, ?_⟩
  cases h : c.holdsTruth with
  | false =>
    have hnone := (truth_eq_notApplicable_iff c cell).mpr h
    simp [hnone, truth_text]
  | true =>
    cases hcontent : cell.content? with
    | none =>
      obtain rfl := (RawCell.content?_eq_none_iff cell).mp hcontent
      have hrun : ¬ c.RunsOn .null := by
        rintro ⟨-, b, rest, hcell⟩
        cases hcell
      simp [truth_null h, hrun, truth_text]
    | some content =>
      have hnull : cell ≠ .null := by
        rintro rfl
        cases hcontent
      obtain ⟨b, htruth, hb⟩ := truth_content h hcontent
      have hreads : b = true ↔ some content = some c.one ∨ c.RunsOn cell := by
        rw [hb]
        simp [ReadsTrue, RunsOn, hcontent]
      rw [hcontent] at hruns
      rw [htruth, Truth.bool.injEq, Truth.bool.injEq, hreads, ← Bool.not_eq_true, hreads]
      refine ⟨?_, ?_, ?_, truth_text c, fun _ => ?_⟩
      · simp [hnull]
      · rw [and_iff_right rfl]
      · rw [and_iff_right rfl, and_iff_right hnull, not_or]
      · tauto

/-- Two bytes in a bit field of one bit, which are more than the byte one and read as true. -/
theorem truth_bit_runs_on :
    (ofDeclared "b" "BIT(1)").holdsTruth = true ∧
      (RawCell.bytes [1, 0]).content? ≠ some (ofDeclared "b" "BIT(1)").one ∧
      (ofDeclared "b" "BIT(1)").truth (.bytes [1, 0]) = .bool true := by
  decide

end Column

end RowStore
