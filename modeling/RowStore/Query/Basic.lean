import RowStore.Fault
import RowStore.Text.Choice

/-!
# Queries

What to read, change or remove in one table, without any SQL: filters that all have to hold, an
order, groups, the fields to return, and a window on the result.
-/

namespace RowStore

/-- Reads a comparison in any of its spellings, with blanks around it. -/
def Comparison.read (source : String) : Except Fault Comparison :=
  match Text.trim source with
  | "=" | "==" => .ok .eq
  | "!=" | "<>" => .ok .ne
  | ">" => .ok .gt
  | ">=" => .ok .ge
  | "<" => .ok .lt
  | "<=" => .ok .le
  | other => .error (.invalid (.unknownComparison other))

/-- The right-hand side of a filter. Nothing at all means the same as null. -/
inductive Operand where
  | missing
  | value (v : Value)
  /-- Membership. No value is a member of an empty list. -/
  | list (vs : List Value)

namespace Operand

def isNull : Operand → Bool
  | missing => true
  | value v => v.isNull
  | list _ => false

def ofOption : Option Value → Operand
  | none => missing
  | some v => value v

/-- A JSON list is a list of operands, null is nothing. -/
def ofJson : Json → Operand
  | .null => missing
  | .array items => list (items.map Value.ofJson)
  | j => value (Value.ofJson j)

end Operand

structure Filter where
  field : String
  comparison : Comparison
  operand : Operand

structure Order where
  field : String
  descending : Bool

structure Query where
  table : String
  filters : List Filter
  orders : List Order
  groups : List String
  /-- The fields to return; `none` stands for all of them. -/
  selection : Option (List String)
  limit : Option UInt64
  offset : Option UInt64
  distinct : Bool

namespace Query

def ofTable (table : String) : Query := ⟨table, [], [], [], none, none, none, false⟩

/-! ## Refining a query -/

def filter (q : Query) (field : String) (comparison : Comparison) (operand : Operand) : Query :=
  { q with filters := q.filters ++ [⟨field, comparison, operand⟩] }

def filterEq (q : Query) (field : String) (operand : Operand) : Query :=
  q.filter field .eq operand

def filterIn (q : Query) (field : String) (values : List Value) : Query :=
  q.filter field .eq (.list values)

def order (q : Query) (field : String) (descending : Bool) : Query :=
  { q with orders := q.orders ++ [⟨field, descending⟩] }

def groupBy (q : Query) (fields : List String) : Query := { q with groups := q.groups ++ fields }

def select (q : Query) (fields : List String) : Query := { q with selection := some fields }

/-- A count that is not zero. -/
def positive (n : UInt64) : Option UInt64 := if n = 0 then none else some n

/-- Zero lifts the limit. -/
def withLimit (q : Query) (n : UInt64) : Query := { q with limit := positive n }

def withOffset (q : Query) (n : UInt64) : Query := { q with offset := positive n }

def withDistinct (q : Query) (distinct : Bool) : Query := { q with distinct := distinct }

def ofIds (table : String) (ids : List String) : Query :=
  (ofTable table).filterIn "id" (ids.map .text)

/-- True when the query asks for rows without any field. -/
def selectsNothing (q : Query) : Bool :=
  match q.selection with
  | some fields => fields.isEmpty
  | none => false

end Query

end RowStore
