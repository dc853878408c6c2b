import RowStore.Number.Binary64

/-!
# JSON values

Trees of null, booleans, numbers, strings, arrays and objects. The members of an object stand in
the order of their keys, each key once; `insertMember` keeps that order.
-/

namespace RowStore

/-- A whole number from `-2 ^ 63` up to `2 ^ 64 - 1` is kept as it is, any other number as the
nearest floating-point number. -/
inductive Json.Number where
  | int (n : Int)
  | float (x : Binary64)
  deriving DecidableEq

inductive Json where
  | null
  | bool (b : Bool)
  | number (n : Json.Number)
  | string (s : String)
  | array (items : List Json)
  | object (members : List (String × Json))

namespace Json

/-- A whole number and a floating-point number differ even where they have the same size. -/
def Number.equals : Number → Number → Bool
  | .int m, .int n => m == n
  | .float x, .float y => x.equals y
  | _, _ => false

mutual

/-- Equality with the numbers compared by `Number.equals`. -/
def equals : Json → Json → Bool
  | .null, .null => true
  | .bool a, .bool b => a == b
  | .number m, .number n => m.equals n
  | .string s, .string t => s == t
  | .array xs, .array ys => itemsEqual xs ys
  | .object xs, .object ys => membersEqual xs ys
  | _, _ => false

def itemsEqual : List Json → List Json → Bool
  | [], [] => true
  | x :: xs, y :: ys => x.equals y && itemsEqual xs ys
  | _, _ => false

def membersEqual : List (String × Json) → List (String × Json) → Bool
  | [], [] => true
  | (k, x) :: xs, (l, y) :: ys => k == l && x.equals y && membersEqual xs ys
  | _, _ => false

end

def isStructured : Json → Bool
  | .array _ | .object _ => true
  | _ => false

/-- Adds a member at the place of its key; a key that is there gets the new value. -/
def insertMember (key : String) (value : Json) : List (String × Json) → List (String × Json)
  | [] => [(key, value)]
  | (k, v) :: rest =>
    if key = k then (key, value) :: rest
    else if key < k then (key, value) :: (k, v) :: rest
    else (k, v) :: insertMember key value rest

end Json

end RowStore
