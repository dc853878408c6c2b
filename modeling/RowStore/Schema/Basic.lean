import RowStore.Json.Decoder

/-!
# Schemas

The fields of a table and the kind of value that each of them holds.
-/

namespace RowStore

open Json (Decoder)

inductive FieldKind where
  | string
  | integer
  | number
  | boolean
  | binary
  | null
  | array
  | object
  deriving DecidableEq

namespace FieldKind

def named : List (String × FieldKind) :=
  [("string", string), ("integer", integer), ("number", number), ("boolean", boolean),
    ("binary", binary), ("null", null), ("array", array), ("object", object)]

def name : FieldKind → String
  | string => "string"
  | integer => "integer"
  | number => "number"
  | boolean => "boolean"
  | binary => "binary"
  | null => "null"
  | array => "array"
  | object => "object"

theorem lookup_name (k : FieldKind) : named.lookup k.name = some k := by cases k <;> decide

end FieldKind

structure SchemaField where
  /-- The name of the field, which may contain dots. -/
  name : String
  kind : FieldKind
  /-- What sort of number it is, such as `int32` or `unixTimestamp`. -/
  format : Option String
  required : Bool
  deriving DecidableEq

structure Schema where
  table : String
  fields : List SchemaField
  deriving DecidableEq

namespace Schema

def field? (s : Schema) (name : String) : Option SchemaField := s.fields.find? (·.name == name)

end Schema

/-! ## JSON -/

namespace SchemaField

def decoder : Decoder SchemaField :=
  Json.Decoder.record "SchemaField"
    [.required "name" Json.Decoder.text fun name f => { f with name := name },
      .required "kind" (Json.Decoder.variant FieldKind.named) fun kind f =>
        { f with kind := kind },
      .defaulted "format" (Json.Decoder.optional Json.Decoder.text) fun format f =>
        { f with format := format },
      .defaulted "required" Json.Decoder.flag fun required f =>
        { f with required := required }]
    ⟨"", .null, none, false⟩

def jsonText (f : SchemaField) : String :=
  let format := match f.format with
    | some format => ",\"format\":" ++ Json.stringText format
    | none => ""
  "\x7b\"name\":" ++ Json.stringText f.name ++ ",\"kind\":" ++ Json.stringText f.kind.name ++
    format ++ ",\"required\":" ++ (if f.required then "true" else "false") ++ "\x7d"

end SchemaField

namespace Schema

def decoder : Decoder Schema :=
  Json.Decoder.record "TableSchema"
    [.required "table" Json.Decoder.text fun table s => { s with table := table },
      .required "fields" (Json.Decoder.list SchemaField.decoder) fun fields s =>
        { s with fields := fields }]
    ⟨"", []⟩

/-- The members in the order of the structure, and no format where there is none. -/
def jsonText (s : Schema) : String :=
  "\x7b\"table\":" ++ Json.stringText s.table ++ ",\"fields\":[" ++
    ",".intercalate (s.fields.map SchemaField.jsonText) ++ "]\x7d"

end Schema

end RowStore
