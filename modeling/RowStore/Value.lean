import RowStore.Calendar.DateTime
import RowStore.Json.Printer
import RowStore.Text.Hex

/-!
# Values of a row

What a field of a row can hold, what an operand of a query can be, and what can be bound to a
parameter of a statement.
-/

namespace RowStore

inductive Value where
  | null
  | int (n : Int64)
  | float (x : Binary64)
  | bool (b : Bool)
  | text (s : String)
  | timestamp (t : DateTime)
  | json (j : Json)
  | blob (bytes : List UInt8)

namespace Value

def isNull : Value → Bool
  | .null => true
  | _ => false

/-- True of JSON objects and arrays, which have to become text before they are stored. -/
def isStructured : Value → Bool
  | .json j => j.isStructured
  | _ => false

def int? : Value → Option Int64
  | .int n => some n
  | _ => none

def stringify : Value → Value
  | .json j => if j.isStructured then .text j.text else .json j
  | v => v

/-- Equality with floating-point numbers compared as numbers. -/
def equals : Value → Value → Bool
  | .null, .null => true
  | .int m, .int n => m == n
  | .float x, .float y => x.equals y
  | .bool a, .bool b => a == b
  | .text s, .text t => s == t
  | .timestamp s, .timestamp t => s == t
  | .json j, .json k => j.equals k
  | .blob a, .blob b => a == b
  | _, _ => false

/-- The plainest value for a JSON value. A whole number that does not fit becomes the nearest
floating-point number; only structured values stay JSON. -/
def ofJson : Json → Value
  | .null => .null
  | .bool b => .bool b
  | .number (.int n) =>
    if Int64.minValue.toInt ≤ n ∧ n ≤ Int64.maxValue.toInt then .int (Int64.ofInt n)
    else .float (Binary64.ofRatio (n < 0) n.natAbs 1)
  | .number (.float x) => .float x
  | .string s => .text s
  | j => .json j

/-- The value with its kind, for a message. -/
def inspect : Value → String
  | .null => "Null"
  | .int n => "Int(" ++ intText n.toInt ++ ")"
  | .float x => "Float(" ++ x.messageText ++ ")"
  | .bool b => if b then "Bool(true)" else "Bool(false)"
  | .text s => "Text(" ++ Text.inspect s ++ ")"
  | .timestamp t => "Timestamp(" ++ String.ofList (t.chars 'T') ++ ")"
  | .json j => "JSON(" ++ j.inspect ++ ")"
  | .blob bytes => "Blob([" ++ ", ".intercalate (bytes.map fun b => natText b.toNat) ++ "])"

end Value

end RowStore
