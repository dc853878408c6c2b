import RowStore.Fault
import RowStore.Text.Choice

/-!
# Field names and column names

A dot in a field name would separate a table from a column, so a column is named with the marker
`_dot_` in place of each dot. Reading a column name back restores the dots. A field name that
holds the marker itself would come back changed and is refused.
-/

namespace RowStore.ColumnName

def marker : List Char := ['_', 'd', 'o', 't', '_']

def columnChars (cs : List Char) : List Char :=
  cs.flatMap fun c => if c = '.' then marker else [c]

def ofField (name : String) : String := String.ofList (columnChars name.toList)

/-- Puts a dot for each marker, from the left, none of them overlapping. -/
def fieldChars : List Char → List Char
  | '_' :: 'd' :: 'o' :: 't' :: '_' :: rest => '.' :: fieldChars rest
  | c :: rest => c :: fieldChars rest
  | [] => []

def toField (column : String) : String := String.ofList (fieldChars column.toList)

/-- The column of a field whose name survives the way there and back. -/
def ofField? (name : String) : Except Fault String :=
  if name.isEmpty then .error (.invalid .emptyField)
  else if Text.occursIn marker name.toList then .error (.invalid (.reservedField name))
  else .ok (ofField name)

end RowStore.ColumnName
