/-!
# Digits

Decimal digits and the value of a run of them. In base sixteen, bytes as pairs of lower-case
digits, and code points with as many digits as they need.
-/

namespace RowStore.Text

/-! ## Base ten -/

/-- The digits `0` to `9`, and no digits of another script. -/
def isAsciiDigit (c : Char) : Bool := 48 ≤ c.toNat && c.toNat ≤ 57

/-- The value of a run of digits `0` to `9`, read in base ten. -/
def digitsValue (ds : List Char) : Nat := ds.foldl (fun n d => 10 * n + (d.toNat - 48)) 0

theorem digitsValue_append_one (ds : List Char) (d : Char) :
    digitsValue (ds ++ [d]) = 10 * digitsValue ds + (d.toNat - 48) := by
  simp [digitsValue, List.foldl_append]

/-! ## Base sixteen -/

/-- The digit for a value below sixteen. -/
def hexDigit (n : Nat) : Char :=
  if n < 10 then Char.ofNat (48 + n) else Char.ofNat (87 + n)

/-- Two digits, the high half first. -/
def byteHex (b : UInt8) : List Char := [hexDigit (b.toNat / 16), hexDigit (b.toNat % 16)]

def bytesHex (bytes : List UInt8) : String := String.ofList (bytes.flatMap byteHex)

/-- The digits of `n` without leading zeros. -/
def natHex (n : Nat) : String := String.ofList (Nat.toDigits 16 n)

/-- The value of a hexadecimal digit in either case. -/
def hexValue? (c : Char) : Option Nat :=
  let n := c.toNat
  if 48 ≤ n && n ≤ 57 then some (n - 48)
  else if 97 ≤ n && n ≤ 102 then some (n - 87)
  else if 65 ≤ n && n ≤ 70 then some (n - 55)
  else none

end RowStore.Text
