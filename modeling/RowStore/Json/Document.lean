import RowStore.Json.Numeral
import RowStore.Json.Place
import RowStore.Json.Printer

/-!
# JSON texts as trees

A document is what a JSON text says, before any reader has asked for something: members in the
order of the text, repeated keys included, numbers as digits. A text that breaks off has a
document too, with the problem at the place where it arises, so a reader that walks the document
meets the first problem of the text and its own objections in the order of the text. The text that
remains stands in the document wherever a problem can arise later.
-/

namespace RowStore.Json

/-- Space, tab, line feed and carriage return. -/
def isSpace (c : Char) : Bool := c = ' ' || c = '\x09' || c = '\x0a' || c = '\x0d'

def skipSpaces (cs : List Char) : List Char := cs.dropWhile isSpace

/-- How a list or an object fails to end well, for each way of walking it. -/
structure Cut where
  /-- For a reader that looks for another element. -/
  reading : Stop
  /-- For a reader that skips the value. -/
  skipping : Problem
  /-- For a reader that has all it wants and looks for the end. -/
  closing : Problem
  deriving DecidableEq

/-- `none` is a proper end. -/
abbrev Ending := Option Cut

/-- A text between quotes. Escapes of surrogates that form no pair leave it without characters,
which a reader that skips it does not mind. -/
abbrev Quoted := Except Stop String

/-- `rest` is the text after a value, `start` the text that begins with its bracket. -/
inductive Document where
  | null (rest : List Char)
  | bool (b : Bool) (rest : List Char)
  | number (n : Numeral) (rest : List Char)
  | string (s : Quoted) (rest : List Char)
  | array (start : List Char) (items : List Document) (ending : Ending)
  | object (start : List Char) (members : List (Quoted × Document)) (ending : Ending)
  /-- No value: the problem for a reader, for one that skips, and for one that looks for a name or
  an object with one. -/
  | broken (reading : Stop) (skipping naming : Problem)

namespace Ending

def reading (e : Ending) : Except Stop Unit :=
  match e with
  | none => .ok ()
  | some cut => .error cut.reading

/-- As `reading`, for a reader that does not tell the place. -/
def finish (e : Ending) : Except Problem Unit := e.reading.mapError Stop.problem

def skipping (e : Ending) : Except Problem Unit :=
  match e with
  | none => .ok ()
  | some cut => .error cut.skipping

def closing (e : Ending) : Except Problem Unit :=
  match e with
  | none => .ok ()
  | some cut => .error cut.closing

end Ending

namespace Document

/-! ## Skipping -/

mutual

/-- The problem that remains for a reader that does not look at the value. -/
def skip : Document → Except Problem Unit
  | .array _ items ending => skipItems ending items
  | .object _ members ending => skipMembers ending members
  | .broken _ problem _ => .error problem
  | _ => .ok ()

def skipItems (ending : Ending) : List Document → Except Problem Unit
  | [] => ending.skipping
  | d :: ds => do
    d.skip
    skipItems ending ds

def skipMembers (ending : Ending) : List (Quoted × Document) → Except Problem Unit
  | [] => ending.skipping
  | (_, d) :: ds => do
    d.skip
    skipMembers ending ds

end

/-! ## Nesting -/

/-- Objects and lists may nest 127 deep. -/
def nestingBudget : Nat := 128

/-- What is left of the budget inside a list or an object. -/
def enter (budget : Nat) : Except Problem Nat :=
  if 1 < budget then .ok (budget - 1) else .error .nestedTooDeeply

/-! ## Objections -/

/-- A number that is too large. Digits of an exponent that is too large by itself are not read to
their end. -/
def tooLarge (n : Numeral) (rest : List Char) (problem : Problem) : Stop :=
  .here (n.unreadDigits ++ rest) problem

/-- What the document is, for a reader that wants something else. -/
def mismatch (d : Document) (want : String) : Stop :=
  let found (rest : List Char) (got : String) : Stop := .here rest (.mismatch got want)
  match d with
  | .null rest => found rest "null"
  | .bool b rest => found rest ("boolean " ++ accented (if b then "true" else "false"))
  | .number n rest =>
    match n.toNumber with
    | .ok (.int i) => found rest ("integer " ++ accented (intText i))
    | .ok (.float x) => found rest ("floating point " ++ accented (x.text .json))
    | .error problem => tooLarge n rest problem
  | .string (.ok s) rest => found rest ("string " ++ Text.inspect s)
  | .string (.error stop) _ => stop
  | .array start _ _ => found start "sequence"
  | .object start _ _ => found start "map"
  | .broken stop _ _ => stop

/-- The text of a string, for a reader that wants `want`, and what follows it. -/
def toText (d : Document) (want : String) : Except Stop (String × List Char) :=
  match d with
  | .string s rest => (·, rest) <$> s
  | d => .error (d.mismatch want)

/-! ## Reading a value of any shape -/

/-- The key that marks an object as a JSON text: the object stands for the value of that text. -/
def embeddedKey : String := "$serde_json::private::RawValue"

/-- What stands under the mark and what follows it. The mark counts as the first key only. -/
def embedded? : List (Quoted × Document) → Option (Document × List (Quoted × Document))
  | (.ok key, d) :: more => if key = embeddedKey then some (d, more) else none
  | _ => none

/-- The value of an embedded text, which `read` reads. No member may follow it. -/
def embeddedValue (read : String → Except Misread Json) (ending : Ending) (d : Document)
    (more : List (Quoted × Document)) : Except Stop Json := do
  let (text, rest) ← d.toText "raw value"
  let value ← (read text).mapError Stop.ofMisread
  let closed : Except Problem Unit :=
    if more.isEmpty then ending.closing else .error .trailingComma
  closed.mapError (Stop.next (skipSpaces rest))
  return value

mutual

/-- The JSON value. Of a repeated key the last value counts. -/
def toJson (read : String → Except Misread Json) (budget : Nat) : Document → Except Stop Json
  | .null _ => .ok .null
  | .bool b _ => .ok (.bool b)
  | .number n rest => .number <$> n.toNumber.mapError (tooLarge n rest)
  | .string s _ => .string <$> s
  | .array start items ending => do
    let inner ← (enter budget).mapError (Stop.next start)
    let values ← itemsToJson read inner items
    ending.reading
    return .array values
  | .object start members ending => do
    let inner ← (enter budget).mapError (Stop.next start)
    match embedded? members with
    | some (d, more) => embeddedValue read ending d more
    | none =>
      let values ← membersToJson read inner [] members
      ending.reading
      return .object values
  | .broken stop _ _ => .error stop

def itemsToJson (read : String → Except Misread Json) (budget : Nat) :
    List Document → Except Stop (List Json)
  | [] => .ok []
  | d :: ds => do
    let value ← d.toJson read budget
    let rest ← itemsToJson read budget ds
    return value :: rest

def membersToJson (read : String → Except Misread Json) (budget : Nat)
    (found : List (String × Json)) :
    List (Quoted × Document) → Except Stop (List (String × Json))
  | [] => .ok found
  | (k, d) :: ds => do
    let key ← k
    let value ← d.toJson read budget
    membersToJson read budget (insertMember key value found) ds

end

end Document

end RowStore.Json
