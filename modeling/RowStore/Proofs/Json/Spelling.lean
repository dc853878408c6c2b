import Mathlib
import RowStore.Json.Lexer

/-!
# What a JSON text says

A text spells a tree: with blanks between its parts, with the members of an object in any order, and
with the characters of a string as they are or escaped. Numbers are whole and fit 64 bits.
-/

namespace RowStore.Json

open Text (isAsciiDigit hexValue?)

/-- The members of an object stand in the order of the text. -/
inductive Tree where
  | null
  | bool (b : Bool)
  | int (n : Int)
  | string (s : String)
  | array (items : List Tree)
  | object (members : List (String × Tree))

/-! ## Characters of a string -/

/-- Four hexadecimal digits, in either case, for a number. -/
def CodeUnit (n : Nat) (four : List Char) : Prop :=
  four.length = 4 ∧ ∃ ds, four.mapM hexValue? = some ds ∧ ds.foldl (fun n d => 16 * n + d) 0 = n

/-- What a letter behind a backslash stands for. -/
def escapes : List (Char × Char) :=
  [('\x22', '\x22'), ('\x5c', '\x5c'), ('/', '/'), ('b', '\x08'), ('f', '\x0c'), ('n', '\x0a'),
    ('r', '\x0d'), ('t', '\x09')]

/-- The ways to write a character between quotes. -/
inductive SpellsChar (c : Char) : List Char → Prop where
  | plain (visible : 0x20 ≤ c.toNat) (quote : c ≠ '\x22') (slash : c ≠ '\x5c') : SpellsChar c [c]
  | short (letter : Char) (escape : (letter, c) ∈ escapes) : SpellsChar c ['\x5c', letter]
  | unit (four : List Char) (unit : CodeUnit c.toNat four) : SpellsChar c ('\x5c' :: 'u' :: four)
  /-- A character beyond the first plane, as two halves. -/
  | pair (high low : Nat) (first second : List Char) (first_unit : CodeUnit (0xD800 + high) first)
      (second_unit : CodeUnit (0xDC00 + low) second) (high_lt : high < 0x400) (low_lt : low < 0x400)
      (whole : c.toNat = 0x10000 + high * 0x400 + low) :
      SpellsChar c ('\x5c' :: 'u' :: (first ++ '\x5c' :: 'u' :: second))

/-- A text that stands between quotes for `s`. -/
def SpellsString (s : String) (text : List Char) : Prop :=
  ∃ parts, List.Forall₂ SpellsChar s.toList parts ∧ text = parts.flatten

/-! ## Texts -/

/-- Space, tab, line feed and carriage return. -/
def blankChars : List Char := [' ', '\x09', '\x0a', '\x0d']

def Blanks (cs : List Char) : Prop := ∀ c ∈ cs, c ∈ blankChars

/-- The end, or a character that cannot go on with a number. -/
def EndsNumber (rest : List Char) : Prop :=
  ∀ c ∈ rest.head?, isAsciiDigit c = false ∧ c ≠ '.' ∧ c ≠ 'e' ∧ c ≠ 'E'

/-- Blanks, with the comma that parts an element from the one before it. -/
inductive Opens : Bool → List Char → Prop where
  | first (blanks : List Char) (h : Blanks blanks) : Opens true blanks
  | later (before behind : List Char) (hbefore : Blanks before) (hbehind : Blanks behind) :
      Opens false (before ++ ',' :: behind)

mutual

/-- The text begins with a spelling of the tree, and then comes `rest`. -/
inductive Spells : Tree → List Char → List Char → Prop where
  | blank {t : Tree} {cs rest : List Char} (c : Char) (h : c ∈ blankChars)
      (value : Spells t cs rest) : Spells t (c :: cs) rest
  | null (rest : List Char) : Spells .null ("null".toList ++ rest) rest
  | bool (b : Bool) (rest : List Char) :
      Spells (.bool b) ((if b then "true" else "false").toList ++ rest) rest
  | int (n : Int) (rest : List Char) (low : -2 ^ 63 ≤ n) (high : n < 2 ^ 64)
      (ends : EndsNumber rest) : Spells (.int n) (intChars n ++ rest) rest
  | string (s : String) (text rest : List Char) (h : SpellsString s text) :
      Spells (.string s) ('\x22' :: (text ++ '\x22' :: rest)) rest
  | array {items : List Tree} {cs rest : List Char} (h : SpellsItems true items cs rest) :
      Spells (.array items) ('[' :: cs) rest
  | object {members : List (String × Tree)} {cs rest : List Char}
      (h : SpellsMembers true members cs rest) : Spells (.object members) ('\x7b' :: cs) rest

/-- The items of a list from its bracket on (`first`), or from behind an item. -/
inductive SpellsItems : Bool → List Tree → List Char → List Char → Prop where
  | close (first : Bool) (blanks rest : List Char) (h : Blanks blanks) :
      SpellsItems first [] (blanks ++ ']' :: rest) rest
  | item {first : Bool} {opening : List Char} {t : Tree} {ts : List Tree} {cs mid rest : List Char}
      (opens : Opens first opening) (value : Spells t cs mid)
      (others : SpellsItems false ts mid rest) : SpellsItems first (t :: ts) (opening ++ cs) rest

/-- The members of an object from its brace on (`first`), or from behind a member. -/
inductive SpellsMembers : Bool → List (String × Tree) → List Char → List Char → Prop where
  | close (first : Bool) (blanks rest : List Char) (h : Blanks blanks) :
      SpellsMembers first [] (blanks ++ '\x7d' :: rest) rest
  | member {first : Bool} {opening blanks text : List Char} {key : String} {t : Tree}
      {ts : List (String × Tree)} {cs mid rest : List Char} (opens : Opens first opening)
      (name : SpellsString key text) (h : Blanks blanks) (value : Spells t cs mid)
      (others : SpellsMembers false ts mid rest) :
      SpellsMembers first ((key, t) :: ts)
        (opening ++ '\x22' :: (text ++ '\x22' :: (blanks ++ ':' :: cs))) rest

end

/-- The whole text is a spelling of the tree, up to blanks at its end. -/
def TextOf (t : Tree) (text : String) : Prop :=
  ∃ blanks, Spells t text.toList blanks ∧ Blanks blanks

mutual

/-- The document says what the tree says, whatever follows it in the text. -/
inductive Says : Document → Tree → Prop where
  | null (rest : List Char) : Says (.null rest) .null
  | bool (b : Bool) (rest : List Char) : Says (.bool b rest) (.bool b)
  | int (x : Numeral) (rest : List Char) (n : Int) (h : x.toNumber = .ok (.int n)) :
      Says (.number x rest) (.int n)
  | string (s : String) (rest : List Char) : Says (.string (.ok s) rest) (.string s)
  | array (start : List Char) {items : List Document} {ts : List Tree} (h : SaysItems items ts) :
      Says (.array start items none) (.array ts)
  | object (start : List Char) {members : List (Quoted × Document)} {ts : List (String × Tree)}
      (h : SaysMembers members ts) : Says (.object start members none) (.object ts)

inductive SaysItems : List Document → List Tree → Prop where
  | nil : SaysItems [] []
  | cons {d : Document} {t : Tree} {ds : List Document} {ts : List Tree} (value : Says d t)
      (others : SaysItems ds ts) : SaysItems (d :: ds) (t :: ts)

inductive SaysMembers : List (Quoted × Document) → List (String × Tree) → Prop where
  | nil : SaysMembers [] []
  | cons {d : Document} {t : Tree} {ds : List (Quoted × Document)} {ts : List (String × Tree)}
      (key : String) (value : Says d t) (others : SaysMembers ds ts) :
      SaysMembers ((.ok key, d) :: ds) ((key, t) :: ts)

end

end RowStore.Json
