import RowStore.Column

/-!
# Column types on the wire

The server describes a column by a type code, flags and a declared length. The name of the type
follows from code and flags.
-/

namespace RowStore.Wire

structure ColumnInfo where
  name : String
  code : Nat
  flags : Nat
  length : Nat
  deriving DecidableEq

namespace ColumnInfo

def isUnsigned (c : ColumnInfo) : Bool := c.flags.testBit 5

def isBinary (c : ColumnInfo) : Bool := c.flags.testBit 7

def isEnum (c : ColumnInfo) : Bool := c.flags.testBit 8

/-- The name of an integer type, with its sign. -/
def integerName (c : ColumnInfo) (name : String) : String :=
  if c.isUnsigned then name ++ " UNSIGNED" else name

/-- The name of a type of bytes or the name of the same type of text. -/
def bytesOr (c : ColumnInfo) (bytes text : String) : String := if c.isBinary then bytes else text

def typeName (c : ColumnInfo) : String :=
  match c.code with
  | 0 | 246 => "DECIMAL"
  | 1 => if c.length = 1 then "BOOLEAN" else c.integerName "TINYINT"
  | 2 => c.integerName "SMALLINT"
  | 3 => c.integerName "INT"
  | 4 => "FLOAT"
  | 5 => "DOUBLE"
  | 6 => "NULL"
  | 7 => "TIMESTAMP"
  | 8 => c.integerName "BIGINT"
  | 9 => c.integerName "MEDIUMINT"
  | 10 => "DATE"
  | 11 => "TIME"
  | 12 => "DATETIME"
  | 13 => "YEAR"
  | 15 | 253 => c.bytesOr "VARBINARY" "VARCHAR"
  | 16 => "BIT"
  | 245 => "JSON"
  | 247 => "ENUM"
  | 248 => "SET"
  | 249 => c.bytesOr "TINYBLOB" "TINYTEXT"
  | 250 => c.bytesOr "MEDIUMBLOB" "MEDIUMTEXT"
  | 251 => c.bytesOr "LONGBLOB" "LONGTEXT"
  | 252 => c.bytesOr "BLOB" "TEXT"
  | 254 => if c.isBinary then "BINARY" else if c.isEnum then "ENUM" else "CHAR"
  | _ => "GEOMETRY"

/-- The column as the truth-value rule sees it: of a declared length only that of bits and signed
integers counts. -/
def toColumn (c : ColumnInfo) : Column :=
  match c.typeName with
  | "BOOLEAN" => .ofType c.name "TINYINT" (some 1)
  | "BIT" => .ofType c.name "BIT" (some c.length)
  | "INT" => .ofType c.name "INT" (some c.length)
  | other => .ofType c.name other none

/-- True of the types whose cell is also without a value when it begins with a zero byte. -/
def isDated (c : ColumnInfo) : Bool := c.code = 7 || c.code = 10 || c.code = 12

end ColumnInfo

end RowStore.Wire
