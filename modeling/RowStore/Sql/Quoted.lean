/-!
# Quoted SQL text

Names stand between grave accents, with a grave accent in the name written twice. Strings stand
between single quotes, with a backslash before what would end the string or get lost in it.
-/

namespace RowStore.Sql

/-! ## Names -/

def nameChar (c : Char) : List Char := if c = '\x60' then ['\x60', '\x60'] else [c]

def quotedName (cs : List Char) : List Char := '\x60' :: (cs.flatMap nameChar ++ ['\x60'])

/-- One name, whatever characters are in it. -/
def quoteName (name : String) : String := String.ofList (quotedName name.toList)

/-- The parts of a path between its dots. A path without a dot has one part. -/
def segments : List Char → List (List Char)
  | [] => [[]]
  | c :: rest =>
    if c = '.' then [] :: segments rest
    else
      match segments rest with
      | [] => [[c]]
      | part :: parts => (c :: part) :: parts

theorem segments_ne_nil (cs : List Char) : segments cs ≠ [] := by
  cases cs with
  | nil => simp [segments]
  | cons c rest =>
    simp only [segments]
    split
    · simp
    · split <;> simp

/-- A table, perhaps with its database in front: each part is a name of its own. -/
def quotePath (path : String) : String :=
  String.ofList (['.'].intercalate ((segments path.toList).map quotedName))

/-! ## Strings -/

/-- The escapes of MySQL in its default mode. -/
def stringChar (c : Char) : List Char :=
  match c with
  | '\x00' => ['\x5c', '0']
  | '\x08' => ['\x5c', 'b']
  | '\x09' => ['\x5c', 't']
  | '\x0a' => ['\x5c', 'n']
  | '\x0d' => ['\x5c', 'r']
  | '\x1a' => ['\x5c', 'Z']
  | '\x22' => ['\x5c', '\x22']
  | '\x27' => ['\x5c', '\x27']
  | '\x5c' => ['\x5c', '\x5c']
  | c => [c]

def quotedString (cs : List Char) : List Char := '\x27' :: (cs.flatMap stringChar ++ ['\x27'])

def quoteString (s : String) : String := String.ofList (quotedString s.toList)

end RowStore.Sql
