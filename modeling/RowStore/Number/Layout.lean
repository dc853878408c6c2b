import RowStore.Number.Shortest

/-!
# Numbers as text

Whole numbers in base ten, and floating-point numbers in the layout that a format asks for. A
layout is a record of the decisions of the format; the digits are always the shortest ones.
-/

namespace RowStore

def natChars (n : Nat) : List Char := Nat.toDigits 10 n

def natText (n : Nat) : String := String.ofList (natChars n)

/-- A negative number has a minus in front. -/
def intChars : Int → List Char
  | .ofNat n => natChars n
  | .negSucc n => '-' :: natChars (n + 1)

def intText (i : Int) : String := String.ofList (intChars i)

/-- Zeros in front of a whole number up to `width` places. -/
def paddedChars (width n : Nat) : List Char :=
  List.replicate (width - (natChars n).length) '0' ++ natChars n

structure FloatLayout where
  /-- The exponents of the leading digit that are written without an exponent. -/
  positional : Int → Bool
  /-- Whether a whole number ends in a point and a zero. -/
  pointZero : Bool
  /-- Whether an exponent that is not negative has a sign. -/
  plusSign : Bool
  tie : Tie

namespace FloatLayout

/-- SQL text: never an exponent, and whole numbers without a point. -/
def sql : FloatLayout := ⟨fun _ => true, false, false, .up⟩

/-- JSON text: an exponent below `10 ^ -5` and from `10 ^ 16` on, with its sign. -/
def json : FloatLayout := ⟨fun e => -5 ≤ e && e < 16, true, true, .toEven⟩

/-- Messages: an exponent below `10 ^ -4` and from `10 ^ 16` on, without a sign in front. -/
def message : FloatLayout := ⟨fun e => -4 ≤ e && e < 16, true, false, .up⟩

end FloatLayout

namespace Decimal

/-- All digits before and after the point, for `ds` times ten to the power `k`. -/
def positionalChars (layout : FloatLayout) (ds : List Char) (k : Int) : List Char :=
  if 0 ≤ k then
    ds ++ List.replicate k.toNat '0' ++ (if layout.pointZero then ['.', '0'] else [])
  else
    let places := (-k).toNat
    if places < ds.length then
      ds.take (ds.length - places) ++ '.' :: ds.drop (ds.length - places)
    else '0' :: '.' :: (List.replicate (places - ds.length) '0' ++ ds)

/-- One digit before the point, and the exponent `e` of that digit. -/
def scientificChars (layout : FloatLayout) (ds : List Char) (e : Int) : List Char :=
  let point := if ds.length ≤ 1 then [] else ['.']
  let sign := if layout.plusSign && 0 ≤ e then ['+'] else []
  ds.take 1 ++ point ++ ds.drop 1 ++ 'e' :: (sign ++ intChars e)

def chars (layout : FloatLayout) (d : Decimal) : List Char :=
  let ds := natChars d.digits
  let e := d.exponent + ds.length - 1
  if layout.positional e then positionalChars layout ds d.exponent
  else scientificChars layout ds e

end Decimal

namespace Binary64

/-- A finite number as text. Zero keeps its sign. -/
def chars (layout : FloatLayout) (x : Binary64) : List Char :=
  let sign := if x.negative then ['-'] else []
  if x.isZero then sign ++ '0' :: (if layout.pointZero then ['.', '0'] else [])
  else sign ++ (x.shortest layout.tie).chars layout

def text (layout : FloatLayout) (x : Binary64) : String := String.ofList (x.chars layout)

def messageText (x : Binary64) : String :=
  if x.isNaN then "NaN"
  else if x.isFinite then x.text .message
  else if x.negative then "-inf" else "inf"

end Binary64

end RowStore
