import RowStore.Text.Hex
import RowStore.Text.Hidden
import RowStore.Text.Joining

/-!
# Text as messages show it

A name inside an error message stands between double quotes. What could be mistaken for the end
of the name, or could not be seen, is written as an escape.
-/

namespace RowStore.Text

/-! ## Visible characters -/

def inRanges (ranges : List (Nat × Nat)) (c : Char) : Bool :=
  ranges.any fun r => r.1 ≤ c.toNat && c.toNat ≤ r.2

/-- A hidden character could not be seen. -/
def isHidden (c : Char) : Bool := inRanges hiddenRanges c

/-- A joining character would change the look of the one before it. -/
def isJoining (c : Char) : Bool := inRanges joiningRanges c

/-! ## Escapes -/

/-- The escape by code point, such as `\u` with `200b` in braces. -/
def codePointEscape (c : Char) : List Char :=
  ['\x5c', 'u', '\x7b'] ++ (natHex c.toNat).toList ++ ['\x7d']

def inspectChar (c : Char) : List Char :=
  match c with
  | '\x00' => ['\x5c', '0']
  | '\x09' => ['\x5c', 't']
  | '\x0a' => ['\x5c', 'n']
  | '\x0d' => ['\x5c', 'r']
  | '\x22' => ['\x5c', '\x22']
  | '\x5c' => ['\x5c', '\x5c']
  | c => if isHidden c || isJoining c then codePointEscape c else [c]

def inspect (s : String) : String :=
  String.ofList ('\x22' :: (s.toList.flatMap inspectChar ++ ['\x22']))

end RowStore.Text
