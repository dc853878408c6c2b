import RowStore.ResultSet
import RowStore.Schema.Basic
import RowStore.Text.Choice
import RowStore.Text.Utf8

/-!
# Table descriptions

The schema of a table that is there, from the server's description of its columns.
-/

namespace RowStore

open Json (Decoder)

structure ColumnDescription where
  column : String
  /-- The declared type, such as `int(11)`. -/
  declared : String
  /-- `YES` when the column may be null. -/
  nullable : String
  deriving DecidableEq

namespace ColumnDescription

def decoder : Decoder ColumnDescription :=
  Json.Decoder.record "TableStats"
    [.required "Field" Json.Decoder.text fun column d => { d with column := column },
      .required "Type" Json.Decoder.text fun declared d => { d with declared := declared },
      .required "Null" Json.Decoder.text fun nullable d => { d with nullable := nullable }]
    ⟨"", "", ""⟩

/-- The text in a column of a description. Nullability may be left open. -/
def textCell (r : ResultRow) (column : String) : Except Fault String :=
  match r.cell column with
  | some (.text s) => .ok s
  | some (.blob content) => .ok (Text.utf8Lenient content)
  | some .null | none =>
    if column = "Null" then .ok "" else .error (.undescribed (.missingColumn column))
  | some _ => .error (.undescribed (.missingColumn column))

def ofRow (r : ResultRow) : Except Fault ColumnDescription := do
  let column ← textCell r "Field"
  let declared ← textCell r "Type"
  let nullable ← textCell r "Null"
  return ⟨column, declared, nullable⟩

def isNullable (d : ColumnDescription) : Bool :=
  d.nullable.toList.map Char.toLower == ['y', 'e', 's']

/-- The kind of value that a declared type holds, in any letter case. The first rule that fits
decides. -/
def kind? (d : ColumnDescription) : Option FieldKind :=
  let declared := d.declared.toList.map Char.toLower
  let within (part : String) : Bool := Text.occursIn part.toList declared
  let opens (part : String) : Bool := part.toList.isPrefixOf declared
  if within "text" || within "char" then some .string
  else if within "lob" || within "binary" then some .binary
  else if opens "tinyint" || within "(1)" then some .boolean
  else if opens "int" || opens "bigint" || opens "smallint" || opens "mediumint" then
    some .integer
  else if opens "float" || opens "double" || opens "decimal" then some .number
  else none

/-- The field that the column holds. A column that may not be null is a required field. -/
def toField (d : ColumnDescription) : Except Fault SchemaField :=
  match d.kind? with
  | some kind => .ok ⟨ColumnName.toField d.column, kind, none, !d.isNullable⟩
  | none => .error (.undescribed (.unknownType d.column d.declared))

end ColumnDescription

def Schema.ofDescription (table : String) (columns : List ColumnDescription) :
    Except Fault Schema := do
  let fields ← columns.mapM ColumnDescription.toField
  return ⟨table, fields⟩

end RowStore
