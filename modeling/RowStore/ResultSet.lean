import RowStore.ColumnName
import RowStore.Record

/-!
# Results

Rows of cells under column names. A cell can be absent, which is less than null: the field is not
there at all.
-/

namespace RowStore

abbrev Cell := Option Value

structure ResultRow where
  columns : List String
  cells : List Cell
  /-- The column names that look-ups go by. They stay when `columns` is set anew. -/
  indexed : List String

namespace ResultRow

def ofCells (columns : List String) (cells : List Cell) : ResultRow := ⟨columns, cells, columns⟩

def rename (r : ResultRow) (columns : List String) : ResultRow := { r with columns := columns }

def lastPlace? (name : String) : List String → Option Nat
  | [] => none
  | c :: cs =>
    match lastPlace? name cs with
    | some i => some (i + 1)
    | none => if c = name then some 0 else none

/-- The place of a column: by the names of the look-up, else the first with the present names. -/
def columnIndex? (r : ResultRow) (name : String) : Option Nat :=
  match lastPlace? name r.indexed with
  | some i => some i
  | none => r.columns.findIdx? (· == name)

def cellAt (r : ResultRow) (i : Nat) : Cell := r.cells[i]?.join

def cell (r : ResultRow) (name : String) : Cell := (r.columnIndex? name).bind r.cellAt

/-- Fields from columns and cells, without the absent cells. -/
def recordOfCells (columns : List String) (cells : List Cell) : Record :=
  (columns.zip cells).foldl (fun r (column, cell) =>
    match cell with
    | some value => r.insert (ColumnName.toField column) value
    | none => r) .empty

def toRecord (r : ResultRow) : Record := recordOfCells r.columns r.cells

end ResultRow

structure ResultSet where
  rows : List ResultRow
  /-- The number of rows that were added under the shared columns. -/
  affected : Nat
  /-- The columns of the rows to come, once they are set. -/
  columns : Option (List String)

namespace ResultSet

def empty : ResultSet := ⟨[], 0, none⟩

def setColumns (s : ResultSet) (columns : List String) : ResultSet :=
  { s with columns := some columns }

/-- Adds a row. Before the columns are set there is nowhere to put it. -/
def addRow (s : ResultSet) (cells : List Cell) : ResultSet :=
  match s.columns with
  | none => s
  | some columns =>
    { s with rows := s.rows ++ [.ofCells columns cells], affected := s.affected + 1 }

def addOwnRow (s : ResultSet) (row : ResultRow) : ResultSet := { s with rows := s.rows ++ [row] }

def ofRows (columns : List String) (rows : List (List Cell)) : ResultSet :=
  ⟨rows.map (.ofCells columns), rows.length, some columns⟩

def toRecords (s : ResultSet) : List Record := s.rows.map ResultRow.toRecord

end ResultSet

end RowStore
