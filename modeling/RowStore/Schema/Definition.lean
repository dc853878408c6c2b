import RowStore.ColumnName
import RowStore.Schema.Basic
import RowStore.Sql.Statement
import RowStore.Text.Choice

/-!
# Table definitions

The statement that creates a table for a schema. Every table has the column `id` as its primary
key; every other column may be null and is null unless a row says otherwise.
-/

namespace RowStore

open Json (Decoder)

namespace Sql

inductive ColumnDefinition where
  | id
  | nullable (column : String) (declared : String)
  deriving DecidableEq

def ColumnDefinition.text : ColumnDefinition → String
  | id => "id VARCHAR(255) NOT NULL"
  | nullable column declared => quoteName column ++ " " ++ declared ++ " DEFAULT NULL"

structure CreateTable where
  table : String
  columns : List ColumnDefinition
  engine : String
  deriving DecidableEq

/-- One line for each column, and one for the primary key. -/
def CreateTable.text (c : CreateTable) : String :=
  "CREATE TABLE " ++ quotePath c.table ++ " (\n" ++
    ",\n".intercalate (c.columns.map ColumnDefinition.text ++ ["PRIMARY KEY (id)"]) ++
    "\n) ENGINE=" ++ c.engine

end Sql

structure TableOptions where
  engine : String
  deriving DecidableEq

namespace TableOptions

def standard : TableOptions := ⟨"InnoDB"⟩

def decoder : Decoder TableOptions :=
  Json.Decoder.record "SchemaOptions"
    [.defaulted "engine" Json.Decoder.text fun engine _ => ⟨engine⟩] standard

end TableOptions

def SchemaField.columnType (f : SchemaField) : String :=
  match f.kind with
  | .string | .array | .object => "LONGTEXT"
  | .integer => "INT(11)"
  | .number =>
    if f.format = some "int32" ∨ f.format = some "unixTimestamp" then "INT(11)" else "FLOAT(11)"
  | .boolean => "TINYINT(1)"
  | .binary => "LONGBLOB"
  | .null => "VARCHAR(255)"

def SchemaField.columnDefinition (f : SchemaField) : Except Fault Sql.ColumnDefinition :=
  if f.name = "id" then .ok .id
  else do
    let column ← ColumnName.ofField? f.name
    return .nullable column f.columnType

namespace Schema

/-- A letter, then letters, digits and underscores. The name stands in the statement as it is. -/
def isEngineName (s : String) : Bool :=
  match s.toList with
  | [] => false
  | c :: rest => c.isAlpha && rest.all fun c => c.isAlphanum || c = '_'

def toDefinition (s : Schema) (options : TableOptions) : Except Fault Sql.CreateTable := do
  if Text.blankOnly s.table then throw (.invalid .blankSchemaTable)
  if !isEngineName options.engine then throw (.invalid (.badEngine options.engine))
  let columns ← s.fields.mapM SchemaField.columnDefinition
  let columns := if (s.field? "id").isSome then columns else .id :: columns
  return ⟨s.table, columns, options.engine⟩

end Schema

end RowStore
