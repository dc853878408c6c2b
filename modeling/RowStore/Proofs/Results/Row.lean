import Mathlib.Data.List.Nodup
import RowStore.Proofs.ColumnName
import RowStore.Proofs.Record
import RowStore.ResultSet

/-!
# A row and its record

A row is read by the places of its columns, by their names, and as a record under the names of
fields. While the columns have different names without dots, the three say the same: no cell takes
the place of another.
-/

namespace RowStore.ResultRow

open ColumnName (Dotless toField)

variable {columns : List String} {cells : List Cell}

/-! ## Places of columns -/

theorem lastPlace?_eq_none_iff (name : String) (columns : List String) :
    lastPlace? name columns = none ↔ name ∉ columns := by
  induction columns with
  | nil => simp [lastPlace?]
  | cons column columns ih =>
    rw [lastPlace?, List.mem_cons, not_or, ← ih]
    cases lastPlace? name columns with
    | some i => simp
    | none =>
      by_cases h : column = name
      · simp [h]
      · simp [h, Ne.symm h]

theorem lastPlace?_getElem (h : columns.Nodup) (i : Nat) (hi : i < columns.length) :
    lastPlace? columns[i] columns = some i := by
  induction columns generalizing i with
  | nil => cases hi
  | cons column columns ih =>
    rw [List.nodup_cons] at h
    rw [lastPlace?]
    cases i with
    | zero =>
      rw [List.getElem_cons_zero, (lastPlace?_eq_none_iff column columns).mpr h.1]
      exact if_pos rfl
    | succ i => rw [List.getElem_cons_succ, ih h.2]

/-! ## Cells that are there -/

/-- The cells that are there, with their columns. -/
def presentCells (columns : List String) (cells : List Cell) : List (String × Value) :=
  (columns.zip cells).filterMap fun (column, cell) => cell.map (column, ·)

theorem presentCells_cons (column : String) (columns : List String) (cell : Cell)
    (cells : List Cell) :
    presentCells (column :: columns) (cell :: cells) =
      (cell.map (column, ·)).toList ++ presentCells columns cells := by
  cases cell <;> rfl

theorem presentCells_names_sublist (columns : List String) (cells : List Cell) :
    ((presentCells columns cells).map (·.1)).Sublist columns := by
  induction columns generalizing cells with
  | nil => exact List.Sublist.refl _
  | cons column columns ih =>
    cases cells with
    | nil => exact List.nil_sublist _
    | cons cell cells =>
      rw [presentCells_cons]
      cases cell with
      | none => exact (ih cells).cons column
      | some value => exact (ih cells).cons_cons column

theorem lookup_presentCells (h : columns.Nodup) (i : Nat) (hi : i < columns.length) :
    (presentCells columns cells).lookup columns[i] = cells[i]?.join := by
  induction columns generalizing cells i with
  | nil => cases hi
  | cons column columns ih =>
    rw [List.nodup_cons] at h
    cases cells with
    | nil => rfl
    | cons cell cells =>
      rw [presentCells_cons]
      cases i with
      | zero =>
        cases cell with
        | some value => simp
        | none =>
          -- Without its cell the column does not come a second time.
          have absent : column ∉ (presentCells columns cells).map (·.1) :=
            fun hmem => h.1 ((presentCells_names_sublist columns cells).subset hmem)
          exact lookup_eq_none_of_notMem absent
      | succ i =>
        have hi := Nat.lt_of_succ_lt_succ hi
        have apart : columns[i] ≠ column := fun same => h.1 (same ▸ List.getElem_mem _)
        rw [List.getElem_cons_succ, List.getElem?_cons_succ]
        cases cell with
        | none => exact ih h.2 i _
        | some value =>
          rw [Option.map_some, Option.toList_some, List.singleton_append,
            lookup_cons_eq_ite, if_neg apart]
          exact ih h.2 i _

theorem recordOfCells_eq (columns : List String) (cells : List Cell) :
    recordOfCells columns cells =
      Record.ofList ((presentCells columns cells).map (Prod.map toField id)) := by
  unfold recordOfCells Record.ofList presentCells
  rw [List.foldl_map, List.foldl_filterMap]
  congr
  funext r ⟨column, cell⟩
  cases cell <;> rfl

/-! ## Three views of a row -/

theorem cell_ofCells_getElem (h : columns.Nodup) (i : Nat) (hi : i < columns.length) :
    (ofCells columns cells).cell columns[i] = cells[i]?.join := by
  have place : (ofCells columns cells).columnIndex? columns[i] = some i := by
    unfold columnIndex? ofCells
    rw [lastPlace?_getElem h i hi]
  rw [cell, place, Option.bind_some, cellAt, ofCells]

theorem cell_ofCells_of_notMem {name : String} (h : name ∉ columns) :
    (ofCells columns cells).cell name = none := by
  have place : (ofCells columns cells).columnIndex? name = none := by
    unfold columnIndex? ofCells
    rw [(lastPlace?_eq_none_iff name columns).mpr h, List.findIdx?_eq_none_iff]
    rintro column hcolumn
    rw [beq_eq_false_iff_ne]
    rintro rfl
    exact h hcolumn
  rw [cell, place, Option.bind_none]

theorem fields_toRecord (h : columns.Nodup) (dotless : ∀ column ∈ columns, Dotless column) :
    (ofCells columns cells).toRecord.fields =
      (presentCells columns cells).map (Prod.map toField id) := by
  have within := presentCells_names_sublist columns cells
  have names : ((presentCells columns cells).map (Prod.map toField id)).map (·.1) =
      ((presentCells columns cells).map (·.1)).map toField := by
    simp [Function.comp_def]
  have distinct : (((presentCells columns cells).map (·.1)).map toField).Nodup :=
    (h.sublist within).map_on fun column mem other mem' =>
      ColumnName.toField_inj (dotless column (within.subset mem))
        (dotless other (within.subset mem'))
  rw [toRecord, ofCells, recordOfCells_eq, Record.fields_ofList _ (names ▸ distinct)]

theorem get?_toRecord (h : columns.Nodup) (dotless : ∀ column ∈ columns, Dotless column)
    {column : String} (mem : column ∈ columns) :
    (ofCells columns cells).toRecord.get? (toField column) =
      (ofCells columns cells).cell column := by
  have within := presentCells_names_sublist columns cells
  have renamed := Record.lookup_renamed toField id (presentCells columns cells) column
    fun other mem' => ColumnName.toField_inj (dotless column mem) (dotless other (within.subset mem'))
  obtain ⟨i, hi, rfl⟩ := List.getElem_of_mem mem
  rw [Record.get?, fields_toRecord h dotless, renamed, Option.map_id_apply,
    lookup_presentCells h i hi, cell_ofCells_getElem h i hi]

end RowStore.ResultRow
