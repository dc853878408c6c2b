import RowStore.Fault
import RowStore.Text.Utf8

/-!
# Parameters on the wire

How a value that is bound to a placeholder is sent: a type code, whether the type is unsigned, and
the bytes, the low byte of a number first.
-/

namespace RowStore.Wire

structure Parameter where
  code : Nat
  isUnsigned : Bool
  content : Option (List UInt8)
  deriving DecidableEq

/-- The lowest `width` bytes of a number, the lowest first. -/
def littleEndian : Nat → Nat → List UInt8
  | 0, _ => []
  | width + 1, n => UInt8.ofNat n :: littleEndian width (n / 256)

/-- A date, and what there is of a time: nothing at midnight sharp, no fraction if it is zero. The
year has sixteen bits. -/
def timestampBytes? (t : DateTime) : Option (List UInt8) :=
  if t.year < 0 ∨ 65536 ≤ t.year then none
  else
    let date := littleEndian 2 t.year.toNat ++ [UInt8.ofNat t.month, UInt8.ofNat t.day]
    let time := [UInt8.ofNat t.hour, UInt8.ofNat t.minute, UInt8.ofNat t.second]
    if t.nanosecond ≠ 0 then some (date ++ time ++ littleEndian 4 (t.nanosecond / 1000))
    else if t.hour = 0 ∧ t.minute = 0 ∧ t.second = 0 then some date
    else some (date ++ time)

namespace Parameter

/-- The parameter at a place, counted from one. -/
def ofValue (place : Nat) : Value → Except Fault Parameter
  | .null => .ok ⟨253, false, none⟩
  | .int n => .ok ⟨8, false, some (littleEndian 8 n.toUInt64.toNat)⟩
  | .float x => .ok ⟨5, false, some (littleEndian 8 x.word)⟩
  | .bool b => .ok ⟨1, true, some [if b then 1 else 0]⟩
  | .text s => .ok ⟨253, false, some (Text.utf8Bytes s)⟩
  | .timestamp t =>
    match timestampBytes? t with
    | some content => .ok ⟨12, false, some content⟩
    | none => .error (.unsent (.yearOutOfRange place t))
  | .json j => .ok ⟨254, false, some (Text.utf8Bytes j.text)⟩
  | .blob content => .ok ⟨252, false, some content⟩

def ofValuesFrom (place : Nat) : List Value → Except Fault (List Parameter)
  | [] => .ok []
  | v :: vs => do
    let first ← ofValue place v
    let rest ← ofValuesFrom (place + 1) vs
    return first :: rest

def ofValues (vs : List Value) : Except Fault (List Parameter) := ofValuesFrom 1 vs

end Parameter

end RowStore.Wire
