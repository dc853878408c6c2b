import RowStore.Calendar.Reader
import RowStore.Flow.Basic
import RowStore.Json.Lexer
import RowStore.Number.Reader
import RowStore.ResultSet
import RowStore.Wire.ColumnType

/-!
# Cells on the wire

The server sends each cell as the text of its value. What the text stands for depends on the type
of the column; the truth-value rule goes first.
-/

namespace RowStore.Wire

/-- The bytes of a cell, or no value. -/
abbrev RawBytes := Option (List UInt8)

/-- Text, or bytes that are no text. -/
def textOrBytes (content : List UInt8) : Value :=
  match Text.utf8? content with
  | some s => .text s
  | none => .blob content

/-- The text of a cell that has to be text. -/
def cellText (place : Nat) (content : List UInt8) : Except Fault String :=
  match Text.utf8? content with
  | some s => .ok s
  | none => .error (.undecodable place (.notText (Text.utf8Flaw content)))

def numberValue {α : Type} (place : Nat) (read : List Char → Except NumberFlaw α)
    (value : α → Value) (content : List UInt8) : Except Fault Value := do
  let s ← cellText place content
  match read s.toList with
  | .ok n => return value n
  | .error flaw => throw (.undecodable place (.notNumber flaw))

/-- A large unsigned integer is kept as its digits. -/
def unsignedValue (n : UInt64) : Value :=
  if n.toNat < Nat.pow 2 63 then .int n.toInt64 else .text (natText n.toNat)

/-- A date, or the text of what is none. -/
def dateValue (read? : List Char → Option DateTime) (content : List UInt8) : Value :=
  match (Text.utf8? content).bind fun s => read? s.toList with
  | some t => .timestamp t
  | none => textOrBytes content

def jsonValue (place : Nat) (column : String) (content : List UInt8) : Except Fault Value := do
  let s ← cellText place content
  match Json.ofText s with
  | .ok j => return .json j
  | .error misread => throw (.unconvertible (.badJson column misread))

/-- The value of a cell that has one. -/
def value (place : Nat) (column : Column) (content : List UInt8) : Except Fault Value :=
  match column.typeName with
  | "NULL" => .ok .null
  | "TINYINT" | "SMALLINT" | "MEDIUMINT" | "INT" | "BIGINT" | "YEAR" | "TINYINT UNSIGNED"
  | "SMALLINT UNSIGNED" | "MEDIUMINT UNSIGNED" | "INT UNSIGNED" =>
    numberValue place readInt64 .int content
  | "BIGINT UNSIGNED" => numberValue place readUInt64 unsignedValue content
  | "FLOAT" | "DOUBLE" => numberValue place Binary64.read .float content
  | "DATETIME" | "TIMESTAMP" => .ok (dateValue DateTime.read? content)
  | "DATE" => .ok (dateValue DateTime.readDate? content)
  | "JSON" => jsonValue place column.name content
  | "BINARY" | "VARBINARY" | "TINYBLOB" | "BLOB" | "MEDIUMBLOB" | "LONGBLOB" | "BIT"
  | "GEOMETRY" => .ok (.blob content)
  | _ => .ok (textOrBytes content)

/-- The bytes of a cell, if they stand for a value. -/
def content? (info : ColumnInfo) (raw : RawBytes) : RawBytes :=
  raw.filter fun content => !(info.isDated && content.head? == some 0)

def cell (place : Nat) (info : ColumnInfo) (raw : RawBytes) : Except Fault Cell :=
  let column := info.toColumn
  let content? := content? info raw
  let rawCell := match content? with
    | none => RawCell.null
    | some content => .bytes content
  match column.truth rawCell with
  | .bool b => .ok (some (.bool b))
  | .absent => .ok none
  | .notApplicable =>
    match content? with
    | none => .ok (some .null)
    | some content => some <$> value place column content

/-- The cells of a row from a place on. -/
def cellsFrom (place : Nat) : List ColumnInfo → List RawBytes → Except Fault (List Cell)
  | info :: infos, raw :: raws => do
    let first ← cell place info raw
    let rest ← cellsFrom (place + 1) infos raws
    return first :: rest
  | _, _ => .ok []

def cells (infos : List ColumnInfo) (raws : List RawBytes) : Except Fault (List Cell) :=
  cellsFrom 0 infos raws

/-! ## Rows together and one by one -/

/-- A result with all rows. Without a row the columns are not known. -/
def resultSet (infos : List ColumnInfo) (rows : List (List RawBytes)) : Except Fault ResultSet := do
  if rows.isEmpty then return .empty
  let decoded ← rows.mapM (cells infos)
  return .ofRows (infos.map (·.toColumn.name)) decoded

/-- One row as a record. -/
def item (infos : List ColumnInfo) (row : List RawBytes) : Item :=
  (ResultRow.recordOfCells (infos.map (·.toColumn.name)) ·) <$> cells infos row

end RowStore.Wire
