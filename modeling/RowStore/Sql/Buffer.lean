import RowStore.Text.Utf8

/-!
# Quoting into a buffer

A quoted string is written behind what a buffer holds already. The loop looks at one byte after the
other, and what stands between two escapes is copied in one piece.
-/

namespace RowStore.Sql

/-- The part of a text between two byte offsets. Neither of them may be inside a character. -/
def slice? (s : String) (start stop : Nat) : Option String :=
  if h : start ≤ stop ∧ (String.Pos.Raw.mk start).IsValid s ∧ (String.Pos.Raw.mk stop).IsValid s then
    some (s.extract (s.pos ⟨start⟩ h.2.1) (s.pos ⟨stop⟩ h.2.2))
  else none

/-- What is written for a byte that cannot stand in a string as it is. -/
def escape? (b : UInt8) : Option (List Char) :=
  match b.toNat with
  | 0x00 => some ['\x5c', '0']
  | 0x08 => some ['\x5c', 'b']
  | 0x09 => some ['\x5c', 't']
  | 0x0a => some ['\x5c', 'n']
  | 0x0d => some ['\x5c', 'r']
  | 0x1a => some ['\x5c', 'Z']
  | 0x22 => some ['\x5c', '\x22']
  | 0x27 => some ['\x5c', '\x27']
  | 0x5c => some ['\x5c', '\x5c']
  | _ => none

structure Copying where
  buffer : String
  /-- The offset up to which the string is written. -/
  start : Nat

def Copying.step (s : String) (c : Copying) (index : Nat) (b : UInt8) : Option Copying :=
  match escape? b with
  | none => some c
  | some escape =>
    (slice? s c.start index).map fun part =>
      ⟨c.buffer ++ part ++ String.ofList escape, index + 1⟩

/-- Goes over the bytes from `index` on. There is no result if a piece would begin or end inside a
character. -/
def Copying.run (s : String) (index : Nat) (c : Copying) : List UInt8 → Option Copying
  | [] => some c
  | b :: rest => (c.step s index b).bind fun c => c.run s (index + 1) rest

def appendQuoted? (buffer s : String) : Option String :=
  (Copying.run s 0 ⟨buffer ++ "\x27", 0⟩ (Text.utf8Bytes s)).bind fun c =>
    (slice? s c.start s.utf8ByteSize).map fun part => c.buffer ++ part ++ "\x27"

end RowStore.Sql
