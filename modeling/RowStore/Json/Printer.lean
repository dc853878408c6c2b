import RowStore.Json.Basic
import RowStore.Number.Layout
import RowStore.Text.Inspect

/-!
# JSON as text

`Json.text` writes a value without blanks, `Json.inspect` writes it for a message, with the kind
of each part.
-/

namespace RowStore.Json

/-! ## Compact text -/

/-- Quotes, backslashes and controls are escaped, all else stands as it is. -/
def stringChar (c : Char) : List Char :=
  match c with
  | '\x22' => ['\x5c', '\x22']
  | '\x5c' => ['\x5c', '\x5c']
  | '\x08' => ['\x5c', 'b']
  | '\x0c' => ['\x5c', 'f']
  | '\x0a' => ['\x5c', 'n']
  | '\x0d' => ['\x5c', 'r']
  | '\x09' => ['\x5c', 't']
  | c =>
    if c.toNat < 0x20 then
      ['\x5c', 'u', '0', '0', Text.hexDigit (c.toNat / 16), Text.hexDigit (c.toNat % 16)]
    else [c]

def stringText (s : String) : String :=
  String.ofList ('\x22' :: (s.toList.flatMap stringChar ++ ['\x22']))

def Number.text : Number → String
  | .int n => intText n
  | .float x => x.text .json

mutual

def text : Json → String
  | .null => "null"
  | .bool b => if b then "true" else "false"
  | .number n => n.text
  | .string s => stringText s
  | .array items => "[" ++ ",".intercalate (itemTexts items) ++ "]"
  | .object members => "\x7b" ++ ",".intercalate (memberTexts members) ++ "\x7d"

def itemTexts : List Json → List String
  | [] => []
  | x :: xs => x.text :: itemTexts xs

def memberTexts : List (String × Json) → List String
  | [] => []
  | (k, x) :: xs => (stringText k ++ ":" ++ x.text) :: memberTexts xs

end

/-! ## Text for messages -/

mutual

def inspect : Json → String
  | .null => "Null"
  | .bool b => if b then "Bool(true)" else "Bool(false)"
  | .number n => "Number(" ++ n.text ++ ")"
  | .string s => "String(" ++ Text.inspect s ++ ")"
  | .array items => "Array [" ++ ", ".intercalate (inspectItems items) ++ "]"
  | .object members => "Object \x7b" ++ ", ".intercalate (inspectMembers members) ++ "\x7d"

def inspectItems : List Json → List String
  | [] => []
  | x :: xs => x.inspect :: inspectItems xs

def inspectMembers : List (String × Json) → List String
  | [] => []
  | (k, x) :: xs => (Text.inspect k ++ ": " ++ x.inspect) :: inspectMembers xs

end

end RowStore.Json
