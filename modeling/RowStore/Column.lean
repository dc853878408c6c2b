import RowStore.Text.Choice
import RowStore.Text.Hex
import RowStore.Text.Utf8

/-!
# Columns of a result

The declared type of a column, and the columns whose cells are truth values: integers declared
with one digit and bit fields of one bit. In such a column `1` is true, any other value is false,
and a cell without a value is absent.
-/

namespace RowStore

structure Column where
  name : String
  /-- The base type in capitals, such as `TINYINT`. -/
  typeName : String
  /-- The declared width, if it is known. -/
  length : Option Nat
  deriving DecidableEq

/-- A cell as the server delivers it. -/
inductive RawCell where
  | null
  | text (s : String)
  | bytes (content : List UInt8)

/-- What the truth-value rule makes of a cell. -/
inductive Truth where
  /-- The column does not hold truth values. -/
  | notApplicable
  | absent
  | bool (b : Bool)
  deriving DecidableEq

namespace Column

open Text (isBlank isAsciiDigit digitsValue)

def ofType (name typeName : String) (length : Option Nat) : Column :=
  ⟨name, String.ofList ((Text.trimChars typeName.toList).map Char.toUpper), length⟩

/-! ## Declared types -/

/-- A number in parentheses, with blanks around each part, as its digits. -/
def lengthDigits? (cs : List Char) : Option (List Char) :=
  match cs.dropWhile isBlank with
  | '(' :: rest =>
    let rest := rest.dropWhile isBlank
    let ds := rest.takeWhile isAsciiDigit
    match (rest.dropWhile isAsciiDigit).dropWhile isBlank with
    | ')' :: _ => if ds.isEmpty then none else some ds
    | _ => none
  | _ => none

/-- A width fits 32 bits. -/
def width? (ds : List Char) : Option Nat :=
  if digitsValue ds < UInt32.size then some (digitsValue ds) else none

/-- The column for a declared type such as `tinyint(1)`. What follows the length is left out; a
type that does not begin with a letter is kept whole. -/
def ofDeclared (name declared : String) : Column :=
  let cs := declared.toList.dropWhile isBlank
  let base := cs.takeWhile Char.isAlpha
  if base.isEmpty then ofType name declared none
  else
    ofType name (String.ofList base) ((lengthDigits? (cs.dropWhile Char.isAlpha)).bind width?)

/-! ## Truth values -/

def truthIntegerTypes : List String := ["TINY", "TINYINT", "INT", "BOOLEAN"]

def truthBitTypes : List String := ["BIT"]

def holdsTruth (c : Column) : Bool :=
  c.length == some 1 &&
    (truthIntegerTypes.contains c.typeName || truthBitTypes.contains c.typeName)

def truth (c : Column) (cell : RawCell) : Truth :=
  if c.length ≠ some 1 then .notApplicable
  else if truthBitTypes.contains c.typeName then
    match cell with
    | .null => .absent
    | .text s => .bool ((Text.utf8Bytes s).head? == some 1)
    | .bytes content => .bool (content.head? == some 1)
  else if truthIntegerTypes.contains c.typeName then
    match cell with
    | .null => .absent
    | .text s => .bool (s == "1")
    | .bytes content => .bool (content == [49])
  else .notApplicable

end Column

end RowStore
