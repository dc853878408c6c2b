/-!
# Binary floating point with 64 bits

A number is its bit pattern, and everything about it is arithmetic on natural numbers: a finite
number is `magnitude` counted in units of `2 ^ -1074`, with a sign. Results are the exact result
rounded once, to the nearest pattern and to the even one of two that are equally near.
-/

namespace RowStore

/-- A sign bit, eleven exponent bits and 52 fraction bits. -/
structure Binary64 where
  bits : UInt64
  deriving DecidableEq

namespace Binary64

def word (x : Binary64) : Nat := x.bits.toNat

def ofWord (n : Nat) : Binary64 := ⟨UInt64.ofNat n⟩

/-! ## The parts of a pattern -/

def negative (x : Binary64) : Bool := decide (Nat.pow 2 63 ≤ x.word)

def exponentField (x : Binary64) : Nat := x.word / Nat.pow 2 52 % Nat.pow 2 11

def fraction (x : Binary64) : Nat := x.word % Nat.pow 2 52

def isFinite (x : Binary64) : Bool := x.exponentField != 2047

def isNaN (x : Binary64) : Bool := x.exponentField == 2047 && x.fraction != 0

/-- The significand as a whole number. The leading bit is not stored unless the field is zero. -/
def significand (x : Binary64) : Nat :=
  if x.exponentField = 0 then x.fraction else x.fraction + Nat.pow 2 52

/-- The significand counts units of `2 ^ scale * 2 ^ -1074`. -/
def scale (x : Binary64) : Nat := x.exponentField - 1

/-- The size of a finite number in units of `2 ^ -1074`. -/
def magnitude (x : Binary64) : Nat := x.significand * Nat.pow 2 x.scale

def isZero (x : Binary64) : Bool := x.word % Nat.pow 2 63 == 0

/-- Equality of numbers: a NaN equals nothing, the two zeros equal each other. -/
def equals (x y : Binary64) : Bool :=
  !x.isNaN && !y.isNaN && (x.bits == y.bits || (x.isZero && y.isZero))

/-! ## Rounding -/

/-- `a / b` as a whole number, nearest first and even on a tie. -/
def roundedQuotient (a b : Nat) : Nat :=
  let q := a / b
  let r := a % b
  if b < 2 * r || (2 * r == b && q % 2 == 1) then q + 1 else q

def infinityWord : Nat := 2047 * Nat.pow 2 52

def signWord (negative : Bool) : Nat := if negative then Nat.pow 2 63 else 0

def infinity (negative : Bool) : Binary64 := ofWord (signWord negative + infinityWord)

def zero (negative : Bool) : Binary64 := ofWord (signWord negative)

/-- The usual pattern that is not a number. -/
def nan : Binary64 := ofWord (infinityWord + Nat.pow 2 51)

/-- The number nearest to `num / den`. Past the largest finite number it is an infinity. A
significand that rounds up to `2 ^ 53` carries into the exponent field by itself. -/
def ofRatio (negative : Bool) (num den : Nat) : Binary64 :=
  let exact := num * Nat.pow 2 1074
  let scale := (exact / den).log2 - 52
  let rounded := scale * Nat.pow 2 52 + roundedQuotient exact (den * Nat.pow 2 scale)
  if infinityWord ≤ rounded then infinity negative else ofWord (signWord negative + rounded)

def ofNat (n : Nat) : Binary64 := ofRatio false n 1

def powerOfTen (k : Nat) : Binary64 := ofNat (Nat.pow 10 k)

/-- The product of two finite numbers that are not negative. -/
def times (x y : Binary64) : Binary64 :=
  ofRatio false (x.magnitude * y.magnitude) (Nat.pow 2 2148)

/-- The quotient of two finite numbers that are not negative, the second not zero. -/
def dividedBy (x y : Binary64) : Binary64 := ofRatio false x.magnitude y.magnitude

/-- The same number with the other sign if `flip` says so. -/
def signed (flip : Bool) (x : Binary64) : Binary64 :=
  if flip then ofWord (x.word + Nat.pow 2 63) else x

end Binary64

end RowStore
