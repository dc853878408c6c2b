import RowStore.Json.Basic
import RowStore.Json.Problem

/-!
# JSON numerals

The digits of a number as a JSON text has them, and the number that they stand for. Digits count
as long as their value fits 64 bits; a later digit of the whole part only moves the point.
-/

namespace RowStore.Json

structure Numeral where
  negative : Bool
  whole : List Char
  /-- The digits after the point, if there is a point. -/
  places : Option (List Char)
  /-- Whether the exponent is negative, and its digits, if there is an exponent. -/
  exponent : Option (Bool × List Char)
  deriving DecidableEq

namespace Numeral

def digit (c : Char) : Nat := c.toNat - 48

/-- Takes digits into `n` while it stays below `limit`. Returns the digits that are left. -/
def fill (limit : Nat) (n : Nat) : List Char → Nat × List Char
  | [] => (n, [])
  | d :: ds =>
    if 10 * n + digit d < limit then fill limit (10 * n + digit d) ds else (n, d :: ds)

/-- `x / 10 ^ k`, in steps that stay in the table of powers of ten. -/
def scaleDown (x : Binary64) (k : Nat) : Binary64 :=
  if k ≤ 308 then x.dividedBy (.powerOfTen k)
  else if x.isZero then x
  else scaleDown (x.dividedBy (.powerOfTen 308)) (k - 308)
termination_by k
decreasing_by omega

/-- `significand * 10 ^ exponent`. The significand is rounded first and the scaled value again. -/
def toFloat (negative : Bool) (significand : Nat) (exponent : Int) : Except Problem Binary64 :=
  let x := Binary64.ofNat significand
  if exponent < 0 then .ok ((scaleDown x exponent.natAbs).signed negative)
  else if 308 < exponent then
    if significand = 0 then .ok (x.signed negative) else .error .numberTooLarge
  else
    let y := x.times (.powerOfTen exponent.toNat)
    if y.isFinite then .ok (y.signed negative) else .error .numberTooLarge

/-- The digits of an exponent behind the first one that takes its value to `2 ^ 31`. -/
def unreadDigits (x : Numeral) : List Char :=
  match x.exponent with
  | none => []
  | some (_, ds) => (fill (Nat.pow 2 31) 0 ds).2.drop 1

/-- A whole number that fits. Minus zero is a floating-point number. -/
def toWhole (negative : Bool) (n : Nat) : Number :=
  if !negative then .int n
  else if n = 0 ∨ Nat.pow 2 63 < n then .float ((Binary64.ofNat n).signed true)
  else .int (-n)

def toNumber (x : Numeral) : Except Problem Number :=
  let (wholePart, excess) := fill UInt64.size 0 x.whole
  let places := x.places.getD []
  let (significand, unread) := fill UInt64.size wholePart places
  let shift : Int := (excess.length : Int) - (places.length - unread.length : Nat)
  match x.places, x.exponent with
  | none, none =>
    if excess.isEmpty then .ok (toWhole x.negative wholePart)
    else .float <$> toFloat x.negative significand shift
  | _, none => .float <$> toFloat x.negative significand shift
  | _, some (down, ds) =>
    let (e, beyond) := fill (Nat.pow 2 31) 0 ds
    if beyond.isEmpty then
      .float <$> toFloat x.negative significand (if down then shift - e else shift + e)
    else if significand = 0 ∨ down then .ok (.float (.zero x.negative))
    else .error .numberTooLarge

end Numeral

end RowStore.Json
