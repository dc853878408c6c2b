import RowStore.Sql.Quoted
import RowStore.Value

/-!
# Comparisons and literals

The six comparisons that a filter can ask for, as SQL writes them, and how a value is written into
the text of a statement. A number without a finite value has no literal of its own and is written
as `NULL`.
-/

namespace RowStore

/-! ## Comparisons -/

inductive Comparison where
  | eq
  | ne
  | gt
  | ge
  | lt
  | le
  deriving DecidableEq

def Comparison.text : Comparison → String
  | eq => "="
  | ne => "!="
  | gt => ">"
  | ge => ">="
  | lt => "<"
  | le => "<="

/-! ## Literals -/

inductive Sql.Literal where
  | null
  | bool (b : Bool)
  | number (digits : String)
  | string (s : String)
  | binary (content : List UInt8)
  deriving DecidableEq

namespace Sql.Literal

def text : Literal → String
  | .null => "NULL"
  | .bool b => if b then "true" else "false"
  | .number digits => digits
  | .string s => quoteString s
  | .binary content => "X'" ++ Text.bytesHex content ++ "'"

/-- Literals in parentheses, with a comma and a blank between them. -/
def tupleText (literals : List Literal) : String :=
  "(" ++ ", ".intercalate (literals.map text) ++ ")"

end Sql.Literal

open Sql (Literal)

/-- A scalar becomes the literal of its kind, an object or array a string of its text. -/
def Json.literal : Json → Literal
  | .null => .null
  | .bool b => .bool b
  | .number n => .number n.text
  | .string s => .string s
  | j => .string j.text

namespace Value

/-- Timestamps are cut down to microseconds, which is what a column keeps at most. -/
def literal : Value → Literal
  | .null => .null
  | .int n => .number (intText n.toInt)
  | .float x => if x.isFinite then .number (x.text .sql) else .null
  | .bool b => .bool b
  | .text s => .string s
  | .timestamp t => .string (String.ofList (t.toMicrosecond.chars ' '))
  | .json j => j.literal
  | .blob content => .binary content

def literalText (v : Value) : String := v.literal.text

end Value

end RowStore
