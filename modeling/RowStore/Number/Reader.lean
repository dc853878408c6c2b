import RowStore.Number.Binary64
import RowStore.Text.Hex

/-!
# Numbers read from text

Whole numbers with an optional sign, and floating-point numbers in decimal notation. The whole
text has to be the number; blanks and separators are not part of one. What keeps a text from being
a number is the first thing in it that does.
-/

namespace RowStore

open Text (isAsciiDigit digitsValue)

inductive NumberFlaw where
  | emptyInteger
  | badDigit
  | tooLarge
  | tooSmall
  | emptyFloat
  | badFloat
  deriving DecidableEq

def NumberFlaw.message : NumberFlaw → String
  | emptyInteger => "cannot parse integer from empty string"
  | badDigit => "invalid digit found in string"
  | tooLarge => "number too large to fit in target type"
  | tooSmall => "number too small to fit in target type"
  | emptyFloat => "cannot parse float from empty string"
  | badFloat => "invalid float literal"

/-! ## Whole numbers -/

/-- Reads on after digits with the value `n`, up to a character that is no digit or that takes the
value above `limit`. -/
def readDigits (limit : Nat) (beyond : NumberFlaw) (n : Nat) : List Char → Except NumberFlaw Nat
  | [] => .ok n
  | d :: ds =>
    let grown := 10 * n + (d.toNat - 48)
    if !isAsciiDigit d then .error .badDigit
    else if limit < grown then .error beyond
    else readDigits limit beyond grown ds

/-- The value of one or more digits. Nothing at all is a flaw of its own only where there is no
sign either. -/
def readMagnitude (signed : Bool) (limit : Nat) (beyond : NumberFlaw) :
    List Char → Except NumberFlaw Nat
  | [] => .error (if signed then .badDigit else .emptyInteger)
  | ds => readDigits limit beyond 0 ds

def readInt64 : List Char → Except NumberFlaw Int64
  | '-' :: ds =>
    (fun n => Int64.ofInt (-n)) <$> readMagnitude true (Nat.pow 2 63) .tooSmall ds
  | '+' :: ds => Int64.ofNat <$> readMagnitude true (Nat.pow 2 63 - 1) .tooLarge ds
  | ds => Int64.ofNat <$> readMagnitude false (Nat.pow 2 63 - 1) .tooLarge ds

/-- No minus is read, not even before a zero. -/
def readUInt64 : List Char → Except NumberFlaw UInt64
  | '+' :: ds => UInt64.ofNat <$> readMagnitude true (UInt64.size - 1) .tooLarge ds
  | ds => UInt64.ofNat <$> readMagnitude false (UInt64.size - 1) .tooLarge ds

/-! ## Floating-point numbers -/

/-- A sign in front, if there is one, and what follows it. -/
def splitSign : List Char → Bool × List Char
  | '-' :: rest => (true, rest)
  | '+' :: rest => (false, rest)
  | cs => (false, cs)

/-- The value of a text of one or more digits. -/
def digits? (cs : List Char) : Option Nat :=
  if !cs.isEmpty && cs.all isAsciiDigit then some (digitsValue cs) else none

namespace Binary64

/-- The number nearest to `digits * 10 ^ exponent`. Far outside the range of exponents the result
does not depend on the digits. -/
def ofDecimal (negative : Bool) (digits : Nat) (exponent : Int) : Binary64 :=
  if digits = 0 then zero negative
  else
    let size := exponent + (Nat.toDigits 10 digits).length
    if 400 < size then infinity negative
    else if size < -400 then zero negative
    else ofRatio negative (digits * Nat.pow 10 exponent.toNat) (Nat.pow 10 (-exponent).toNat)

/-- The exponent after the letter, if there is a letter and digits follow it. -/
def readExponent? : List Char → Option Int
  | [] => some 0
  | c :: rest =>
    if c = 'e' ∨ c = 'E' then
      let (negative, ds) := splitSign rest
      (digits? ds).map fun n => if negative then -(n : Int) else n
    else none

/-- Digits with an optional point among or around them, and an optional exponent. -/
def readDecimal? (negative : Bool) (cs : List Char) : Option Binary64 :=
  let whole := cs.takeWhile isAsciiDigit
  let afterWhole := cs.dropWhile isAsciiDigit
  let (places, rest) := match afterWhole with
    | '.' :: r => (r.takeWhile isAsciiDigit, r.dropWhile isAsciiDigit)
    | r => ([], r)
  if whole.isEmpty && places.isEmpty then none
  else (readExponent? rest).map fun e =>
    ofDecimal negative (digitsValue (whole ++ places)) (e - places.length)

/-- Decimal notation, or a word for what is no finite number, in any letter case. -/
def read? (cs : List Char) : Option Binary64 :=
  let (negative, rest) := splitSign cs
  let letters := String.ofList (rest.map Char.toLower)
  if letters = "inf" ∨ letters = "infinity" then some (infinity negative)
  else if letters = "nan" then some nan
  else readDecimal? negative rest

def read (cs : List Char) : Except NumberFlaw Binary64 :=
  match read? cs with
  | some x => .ok x
  | none => .error (if cs.isEmpty then .emptyFloat else .badFloat)

end Binary64

end RowStore
