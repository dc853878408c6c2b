import Mathlib
import RowStore.Proofs.Results.Row

/-!
# Filling a result set

Columns can be set again between rows. Each row keeps the columns that were in force when it was
added, a row before any columns is dropped, and all views of a row that is kept agree.
-/

namespace RowStore

open ColumnName (Dotless toField)

/-- What is done to a result set while it is filled. -/
inductive Filling where
  | columns (names : List String)
  | row (cells : List Cell)

namespace Filling

def columns? : Filling → Option (List String)
  | .columns names => some names
  | .row _ => none

/-- The columns that were set last. -/
def inForce (done : List Filling) : Option (List String) := (done.filterMap columns?).getLast?

/-- The row that is added, with the columns that it is added under. -/
def row? (names : Option (List String)) : Filling → Option (List String × List Cell)
  | .columns _ => none
  | .row cells => names.map (·, cells)

/-- The rows of a whole filling, each with the columns that were set last before it. -/
def rows (all : List Filling) : List (List String × List Cell) :=
  all.zipIdx.filterMap fun (step, i) => step.row? (inForce (all.take i))

theorem inForce_concat (done : List Filling) (step : Filling) :
    inForce (done ++ [step]) = step.columns?.or (inForce done) := by
  unfold inForce
  cases step <;> simp [columns?]

theorem rows_concat (done : List Filling) (step : Filling) :
    rows (done ++ [step]) = rows done ++ (step.row? (inForce done)).toList := by
  unfold rows
  rw [List.zipIdx_append, List.filterMap_append]
  congr 1
  · refine List.filterMap_congr fun ⟨earlier, i⟩ mem => ?_
    have hi := List.snd_lt_of_mem_zipIdx mem
    simp only [List.take_append_of_le_length (Nat.le_of_lt (by simpa using hi))]
  · cases h : step.row? (inForce done) <;> simp [h]

theorem mem_of_inForce {done : List Filling} {names : List String}
    (h : inForce done = some names) : .columns names ∈ done := by
  obtain ⟨step, mem, same⟩ := List.mem_filterMap.mp (List.mem_of_getLast? h)
  cases step with
  | columns _ => exact Option.some.inj same ▸ mem
  | row _ => cases same

end Filling

namespace ResultSet

def fill (s : ResultSet) : Filling → ResultSet
  | .columns names => s.setColumns names
  | .row cells => s.addRow cells

def fillAll (s : ResultSet) (steps : List Filling) : ResultSet := steps.foldl fill s

/-- What a result set holds after some steps. -/
structure Holds (s : ResultSet) (done : List Filling) : Prop where
  columns : s.columns = Filling.inForce done
  rows : s.rows = (Filling.rows done).map fun (names, cells) => .ofCells names cells
  affected : s.affected = s.rows.length

theorem holds_empty : empty.Holds [] := ⟨rfl, rfl, rfl⟩

theorem holds_fill {s : ResultSet} {done : List Filling} (h : s.Holds done) (step : Filling) :
    (s.fill step).Holds (done ++ [step]) := by
  obtain ⟨columns, rows, affected⟩ := h
  cases step with
  | columns names =>
    refine ⟨?_, ?_, affected⟩
    · rw [Filling.inForce_concat]
      rfl
    · rw [Filling.rows_concat, Filling.row?, Option.toList_none, List.append_nil]
      exact rows
  | row cells =>
    unfold fill addRow
    rw [columns]
    cases inForce : Filling.inForce done with
    | none =>
      refine ⟨?_, ?_, affected⟩
      · rw [columns, Filling.inForce_concat, inForce]
        rfl
      · rw [rows, Filling.rows_concat, inForce]
        simp [Filling.row?]
    | some names =>
      refine ⟨?_, ?_, ?_⟩
      · rw [Filling.inForce_concat, inForce]
        rfl
      · rw [rows, Filling.rows_concat, inForce]
        simp [Filling.row?]
      · simp [affected]

theorem holds_fillAll (steps : List Filling) : (empty.fillAll steps).Holds steps := by
  induction steps using List.reverseRecOn with
  | nil => exact holds_empty
  | append_singleton done step ih =>
    rw [fillAll, List.foldl_concat]
    exact holds_fill ih step

/-- The result of a statement is filled with its columns first and then row by row. -/
theorem ofRows_eq_fillAll (columns : List String) (rows : List (List Cell)) :
    ofRows columns rows = empty.fillAll (.columns columns :: rows.map .row) := by
  induction rows using List.reverseRecOn with
  | nil => rfl
  | append_singleton rows cells ih =>
    have added : ofRows columns (rows ++ [cells]) = (ofRows columns rows).addRow cells := by
      simp [ofRows, addRow]
    rw [added, ih, List.map_append, ← List.cons_append, fillAll, fillAll, List.map_singleton,
      List.foldl_concat, fill]

end ResultSet

/-! ## Views of the rows -/

/-- By the places of its columns, by their names and as a record, a row says the same. -/
structure ResultRow.Agrees (r : ResultRow) : Prop where
  cell (i : Nat) (hi : i < r.columns.length) : r.cell r.columns[i] = r.cells[i]?.join
  unknown (name : String) (h : name ∉ r.columns) : r.cell name = none
  fields : r.toRecord.fields = (presentCells r.columns r.cells).map (Prod.map toField id)
  get? (column : String) (h : column ∈ r.columns) :
    r.toRecord.get? (toField column) = r.cell column

theorem ResultRow.agrees_ofCells {columns : List String} (h : columns.Nodup)
    (dotless : ∀ column ∈ columns, Dotless column) (cells : List Cell) :
    (ofCells columns cells).Agrees where
  cell := cell_ofCells_getElem h
  unknown _ := cell_ofCells_of_notMem
  fields := fields_toRecord h dotless
  get? _ := get?_toRecord h dotless

namespace ResultSet

theorem exists_row {steps : List Filling} {r : ResultRow}
    (h : r ∈ (empty.fillAll steps).rows) :
    ∃ names cells, .columns names ∈ steps ∧ r = .ofCells names cells := by
  rw [(holds_fillAll steps).rows, List.mem_map] at h
  obtain ⟨⟨names, cells⟩, mem, rfl⟩ := h
  obtain ⟨⟨step, i⟩, -, found⟩ := List.mem_filterMap.mp mem
  cases step with
  | columns _ => cases found
  | row _ =>
    obtain ⟨names', inForce, same⟩ := Option.map_eq_some_iff.mp found
    obtain ⟨rfl, rfl⟩ := Prod.mk.inj same
    exact ⟨names', _, List.mem_of_mem_take (Filling.mem_of_inForce inForce), rfl⟩

/-- A result set that is filled under columns with different names and no dots has the rows that
were added under them, each with the columns that were in force, and the views of every row
agree. -/
theorem views_agree (steps : List Filling)
    (h : ∀ names, .columns names ∈ steps → names.Nodup ∧ ∀ name ∈ names, Dotless name) :
    (empty.fillAll steps).affected = (empty.fillAll steps).rows.length ∧
    ((empty.fillAll steps).rows.map fun r => (r.columns, r.cells)) = Filling.rows steps ∧
    (∀ r ∈ (empty.fillAll steps).rows, r.Agrees) ∧
    (empty.fillAll steps).toRecords.map Record.fields =
      (Filling.rows steps).map fun (names, cells) =>
        (ResultRow.presentCells names cells).map (Prod.map toField id) := by
  have holds := holds_fillAll steps
  have agree : ∀ r ∈ (empty.fillAll steps).rows, r.Agrees := by
    intro r mem
    obtain ⟨names, cells, set, rfl⟩ := exists_row mem
    exact ResultRow.agrees_ofCells (h names set).1 (h names set).2 cells
  have kept : ((empty.fillAll steps).rows.map fun r => (r.columns, r.cells)) =
      Filling.rows steps := by
    rw [holds.rows, List.map_map]
    exact List.map_id _
  refine ⟨holds.affected, kept, agree, ?_⟩
  rw [← kept, toRecords, List.map_map, List.map_map]
  exact List.map_congr_left fun r mem => (agree r mem).fields

/-- A row before any columns, one with a cell too few and one with a cell too many, and columns that
are set anew in another order. -/
theorem views_agree_reset :
    let steps : List Filling := [.row [some .null], .columns ["id", "a_dot_b", "_dot_dot_"],
      .row [some (.int 1), none], .columns ["a_dot_b", "id"],
      .row [some (.bool true), some .null, some (.int 3)]]
    (∀ names, .columns names ∈ steps → names.Nodup ∧ ∀ name ∈ names, Dotless name) ∧
      (empty.fillAll steps).affected = 2 ∧
      (empty.fillAll steps).toRecords.map Record.fields =
        [[("id", .int 1)], [("a.b", .bool true), ("id", .null)]] := by
  intro steps
  have set : ∀ names, .columns names ∈ steps →
      names.Nodup ∧ ∀ name ∈ names, Dotless name := by
    intro names mem
    simp only [steps, List.mem_cons, List.not_mem_nil, or_false, reduceCtorEq, false_or,
      Filling.columns.injEq] at mem
    rcases mem with rfl | rfl <;> decide
  obtain ⟨affected, -, -, records⟩ := views_agree steps set
  exact ⟨set, affected, records⟩

end ResultSet

end RowStore
