import RowStore.Json.Document
import RowStore.Text.Hex

/-!
# From JSON text to documents

Each function takes characters off the front of a text and returns what follows. After a problem
nothing follows, since no reader goes on past it.
-/

namespace RowStore.Json

open Text (isAsciiDigit hexValue?)

/-! ## Literals and numbers -/

/-- The rest of the word `null`, `true` or `false`. -/
def readLiteral (value : List Char → Document) : List Char → List Char → Document × List Char
  | [], cs => (value cs, cs)
  | _ :: _, [] => (.broken (.next [] .endInValue) .endInValue .valueExpected, [])
  | l :: ls, c :: cs =>
    if l = c then readLiteral value ls cs
    else (.broken (.next (c :: cs) .badLiteral) .badLiteral .valueExpected, [])

/-- A number without the digits that have to stand where `cs` begins. -/
def digitMissing (cs : List Char) : Document :=
  .broken (.next cs (if cs.isEmpty then .endInValue else .badNumber)) .badNumber .valueExpected

/-- The exponent of a number whose other parts are known. -/
def readExponent (negative : Bool) (whole : List Char) (places : Option (List Char))
    (cs : List Char) : Document × List Char :=
  let (down, cs) := match cs with
    | '-' :: rest => (true, rest)
    | '+' :: rest => (false, rest)
    | cs => (false, cs)
  let ds := cs.takeWhile isAsciiDigit
  let rest := cs.dropWhile isAsciiDigit
  if ds.isEmpty then (digitMissing cs, [])
  else (.number ⟨negative, whole, places, some (down, ds)⟩ rest, rest)

/-- What may follow the digits of a number: an exponent, or nothing. -/
def readTail (negative : Bool) (whole : List Char) (places : Option (List Char)) :
    List Char → Document × List Char
  | 'e' :: cs => readExponent negative whole places cs
  | 'E' :: cs => readExponent negative whole places cs
  | cs => (.number ⟨negative, whole, places, none⟩ cs, cs)

/-- A number after its minus, if it has one. A zero in front stands alone. -/
def readNumber (negative : Bool) (cs : List Char) : Document × List Char :=
  let ds := cs.takeWhile isAsciiDigit
  let rest := cs.dropWhile isAsciiDigit
  match ds, rest with
  | [], rest => (digitMissing rest, [])
  | '0' :: _ :: _, _ => (.broken (.next (cs.drop 1) .badNumber) .badNumber .valueExpected, [])
  | whole, '.' :: rest =>
    let places := rest.takeWhile isAsciiDigit
    let rest := rest.dropWhile isAsciiDigit
    if places.isEmpty then (digitMissing rest, []) else readTail negative whole (some places) rest
  | whole, rest => readTail negative whole none rest

/-! ## Strings -/

/-- What stands after the opening quote of a string: its end, or a problem for readers and one
for those who skip. -/
inductive StringEnd where
  | closed (s : Quoted) (rest : List Char)
  | broken (reading : Stop) (skipping : Problem)

/-- The four digits after `\u`. Three bytes are too few, whatever they are. -/
def readCodeUnit (cs : List Char) : Except Stop (Nat × List Char) :=
  let four := cs.take 4
  if (String.ofList four).utf8ByteSize < 4 then .error (.next [] .endInString)
  else
    match four.mapM hexValue? with
    | some ds => .ok (ds.foldl (fun n d => 16 * n + d) 0, cs.drop 4)
    | none => .error ⟨.badEscape, .remaining cs 4⟩

/-- The character that an escape of one letter stands for. -/
def shortEscape? (c : Char) : Option Char :=
  match c with
  | '\x22' | '\x5c' | '/' => some c
  | 'b' => some '\x08'
  | 'f' => some '\x0c'
  | 'n' => some '\x0a'
  | 'r' => some '\x0d'
  | 't' => some '\x09'
  | _ => none

/-- Reads on after an opening quote. `shown` holds the characters so far, the last one first;
`fault` is the first problem with surrogates, which does not end the string. -/
def readString : Nat → List Char → Option Stop → List Char → StringEnd
  | 0, _, _, _ => .broken (.next [] .endInString) .endInString
  | fuel + 1, shown, fault, cs =>
    let broken (stop : Stop) : StringEnd := .broken (fault.getD stop) stop.problem
    let doubt (stop : Stop) : Option Stop := some (fault.getD stop)
    match cs with
    | [] => broken (.next [] .endInString)
    | '\x22' :: rest =>
      match fault with
      | none => .closed (.ok (String.ofList shown.reverse)) rest
      | some stop => .closed (.error stop) rest
    | '\x5c' :: 'u' :: rest =>
      match readCodeUnit rest with
      | .error stop => broken stop
      | .ok (high, rest) =>
        if 0xDC00 ≤ high ∧ high ≤ 0xDFFF then
          readString fuel shown (doubt (.here rest .loneSurrogate)) rest
        else if high < 0xD800 ∨ 0xDBFF < high then
          readString fuel (Char.ofNat high :: shown) fault rest
        else
          match rest with
          | [] => broken (.next [] .endInString)
          | ['\x5c'] => broken (.next [] .endInString)
          | '\x5c' :: 'u' :: after =>
            match readCodeUnit after with
            | .error stop => broken stop
            | .ok (low, after) =>
              if 0xDC00 ≤ low ∧ low ≤ 0xDFFF then
                let code := 0x10000 + (high - 0xD800) * 0x400 + (low - 0xDC00)
                readString fuel (Char.ofNat code :: shown) fault after
              else readString fuel shown (doubt (.here after .loneSurrogate)) after
          | '\x5c' :: after =>
            readString fuel shown (doubt (.next after .brokenSurrogatePair)) ('\x5c' :: after)
          | rest => readString fuel shown (doubt (.next rest .brokenSurrogatePair)) rest
    | ['\x5c'] => broken (.next [] .endInString)
    | '\x5c' :: c :: rest =>
      match shortEscape? c with
      | some e => readString fuel (e :: shown) fault rest
      | none => broken (.next (c :: rest) .badEscape)
    | c :: rest =>
      if c.toNat < 0x20 then broken (.next cs .controlCharacter)
      else readString fuel (c :: shown) fault rest

/-- Every step takes a character off the text. -/
def readQuoted (cs : List Char) : StringEnd := readString (cs.length + 1) [] none cs

/-! ## Values -/

/-- An end of a list or an object at which every reader has the same problem. -/
def Cut.same (rest : List Char) (problem : Problem) : Cut := ⟨.next rest problem, problem, problem⟩

/-- No value, with the same problem for every reader. -/
def Document.missing (rest : List Char) (problem : Problem) : Document :=
  .broken (.next rest problem) problem problem

mutual

def readValue : Nat → List Char → Document × List Char
  | 0, _ => (.missing [] .endInValue, [])
  | fuel + 1, cs =>
    match skipSpaces cs with
    | [] => (.missing [] .endInValue, [])
    | 'n' :: rest => readLiteral .null ['u', 'l', 'l'] rest
    | 't' :: rest => readLiteral (.bool true) ['r', 'u', 'e'] rest
    | 'f' :: rest => readLiteral (.bool false) ['a', 'l', 's', 'e'] rest
    | '-' :: rest => readNumber true rest
    | '\x22' :: rest =>
      match readQuoted rest with
      | .closed s rest => (.string s rest, rest)
      | .broken reading skipping => (.broken reading skipping reading.problem, [])
    | '[' :: rest =>
      let (items, ending, after) := readItems fuel true rest
      (.array ('[' :: rest) items ending, after)
    | '\x7b' :: rest =>
      let (members, ending, after) := readMembers fuel true rest
      (.object ('\x7b' :: rest) members ending, after)
    | c :: rest =>
      if isAsciiDigit c then readNumber false (c :: rest)
      else (.missing (c :: rest) .valueExpected, [])

/-- The items of a list after its bracket (`first`), or after an item. -/
def readItems : Nat → Bool → List Char → List Document × Ending × List Char
  | 0, _, _ => ([], some (.same [] .endInList), [])
  | fuel + 1, first, cs =>
    let item (cs : List Char) : List Document × Ending × List Char :=
      let (d, rest) := readValue fuel cs
      let (ds, ending, rest) := readItems fuel false rest
      (d :: ds, ending, rest)
    match first, skipSpaces cs with
    | _, [] => ([], some (.same [] .endInList), [])
    | _, ']' :: rest => ([], none, rest)
    | true, cs => item cs
    | false, ',' :: rest =>
      match skipSpaces rest with
      | [] =>
        ([], some ⟨.next [] .endInValue, .endInValue, .trailingCharacters⟩, [])
      | ']' :: rest =>
        ([], some ⟨.next (']' :: rest) .trailingComma, .valueExpected, .trailingComma⟩, [])
      | cs => item cs
    | false, c :: rest =>
      ([], some ⟨.next (c :: rest) .listCommaExpected, .listCommaExpected, .trailingCharacters⟩,
        [])

/-- The members of an object after its brace (`first`), or after a member. -/
def readMembers : Nat → Bool → List Char → List (Quoted × Document) × Ending × List Char
  | 0, _, _ => ([], some (.same [] .endInObject), [])
  | fuel + 1, first, cs =>
    let member (cs : List Char) : List (Quoted × Document) × Ending × List Char :=
      match readQuoted cs with
      | .broken reading skipping =>
        ([], some ⟨reading, skipping, .trailingComma⟩, [])
      | .closed key rest =>
        let (d, rest) := match skipSpaces rest with
          | [] => (Document.missing [] .endInObject, [])
          | ':' :: rest => readValue fuel rest
          | c :: rest => (Document.missing (c :: rest) .colonExpected, [])
        let (ds, ending, rest) := readMembers fuel false rest
        ((key, d) :: ds, ending, rest)
    match first, skipSpaces cs with
    | _, [] => ([], some (.same [] .endInObject), [])
    | _, '\x7d' :: rest => ([], none, rest)
    | true, '\x22' :: rest => member rest
    | true, c :: rest => ([], some (.same (c :: rest) .keyNotString), [])
    | false, ',' :: rest =>
      match skipSpaces rest with
      | [] => ([], some ⟨.next [] .endInValue, .endInObject, .trailingComma⟩, [])
      | '\x22' :: rest => member rest
      | '\x7d' :: rest =>
        ([], some ⟨.next ('\x7d' :: rest) .trailingComma, .keyNotString, .trailingComma⟩, [])
      | c :: rest =>
        ([], some ⟨.next (c :: rest) .keyNotString, .keyNotString, .trailingComma⟩, [])
    | false, c :: rest =>
      ([], some ⟨.next (c :: rest) .objectCommaExpected, .objectCommaExpected,
        .trailingCharacters⟩, [])

end

/-- The document at the front of a text, and what follows. Between two steps that take nothing
there is one that takes a character. -/
def readDocument (cs : List Char) : Document × List Char := readValue (2 * cs.length + 2) cs

/-- What `decode` makes of a text that is one value. -/
def decodeText {ε α : Type} (decode : Document → Except ε α) (trailing : Stop → ε)
    (text : String) : Except ε α := do
  let (d, rest) := readDocument text.toList
  let value ← decode d
  let rest := skipSpaces rest
  if rest.isEmpty then .ok value else .error (trailing (.next rest .trailingCharacters))

/-- The JSON value that a text is, with texts inside it read down to some depth. -/
def ofTextWithin : Nat → String → Except Misread Json
  | 0, text => .error ((Stop.next [] .endInValue).misread text)
  | depth + 1, text =>
    let decode := Document.toJson (ofTextWithin depth) Document.nestingBudget
    (decodeText decode id text).mapError (Stop.misread text)

/-- The JSON value that a text is. A text inside it is shorter than it is. -/
def ofText (text : String) : Except Misread Json := ofTextWithin (text.length + 1) text

end RowStore.Json
