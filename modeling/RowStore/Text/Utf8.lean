/-!
# Bytes as text

Strict reading takes well-formed UTF-8 only. Lenient reading puts the replacement character
where a well-formed sequence breaks off, one for each longest part that could have begun one; a
`Utf8Flaw` is the place of the first of these.
-/

namespace RowStore.Text

/-- The text that the bytes spell, if they are well-formed UTF-8. -/
def utf8? (bytes : List UInt8) : Option String := String.fromUTF8? ⟨bytes.toArray⟩

def utf8Bytes (s : String) : List UInt8 := s.toUTF8.data.toList

/-- What a lead byte asks for: how many bytes follow it, and the range of the first of them. -/
def followers (lead : Nat) : Option (Nat × Nat × Nat) :=
  if lead < 0xC2 then none
  else if lead < 0xE0 then some (1, 0x80, 0xBF)
  else if lead = 0xE0 then some (2, 0xA0, 0xBF)
  else if lead = 0xED then some (2, 0x80, 0x9F)
  else if lead < 0xF0 then some (2, 0x80, 0xBF)
  else if lead = 0xF0 then some (3, 0x90, 0xBF)
  else if lead < 0xF4 then some (3, 0x80, 0xBF)
  else if lead = 0xF4 then some (3, 0x80, 0x8F)
  else none

/-- A sequence that has begun: the bits so far, the bytes still owed, the range of the next. -/
structure Pending where
  bits : Nat
  owed : Nat
  low : Nat
  high : Nat

namespace Pending

/-- What a lead byte begins, if it begins anything. -/
def ofLead (b : UInt8) : Option Pending :=
  (followers b.toNat).map fun (owed, low, high) =>
    ⟨b.toNat % Nat.pow 2 (6 - owed), owed, low, high⟩

/-- The sequence with one more byte, if the byte continues it. -/
def add? (p : Pending) (b : UInt8) : Option Pending :=
  if p.low ≤ b.toNat && b.toNat ≤ p.high then
    some ⟨p.bits * 64 + b.toNat % 64, p.owed - 1, 0x80, 0xBF⟩
  else none

end Pending

/-! ## Lenient reading -/

/-- One byte between characters: a character, a beginning, or a byte that fits nowhere. -/
def readLead (shown : List Char) (b : UInt8) : List Char × Option Pending :=
  if b.toNat < 0x80 then (Char.ofNat b.toNat :: shown, none)
  else
    match Pending.ofLead b with
    | none => ('\ufffd' :: shown, none)
    | some p => (shown, some p)

/-- One byte of a lenient reading. `shown` holds the characters so far, last one first. -/
def readByte : List Char × Option Pending → UInt8 → List Char × Option Pending
  | (shown, none), b => readLead shown b
  | (shown, some p), b =>
    match p.add? b with
    | some p => if p.owed = 0 then (Char.ofNat p.bits :: shown, none) else (shown, some p)
    | none => readLead ('\ufffd' :: shown) b

def utf8Lenient (bytes : List UInt8) : String :=
  let (shown, rest) := bytes.foldl readByte ([], none)
  String.ofList (if rest.isSome then '\ufffd' :: shown else shown).reverse

/-! ## Where bytes stop being text -/

structure Utf8Flaw where
  /-- The number of bytes that spell whole characters. -/
  valid : Nat
  /-- How many of the bytes that follow could have begun a character, or one if none could;
  `none` where the bytes end in the middle of a character. -/
  width : Option Nat
  deriving DecidableEq

/-- Goes on after `valid` bytes that spell characters, and a sequence that has begun with some
bytes more. Bytes that are text are flawed by nothing but their end. -/
def flawFrom (valid : Nat) : Option (Pending × Nat) → List UInt8 → Utf8Flaw
  | _, [] => ⟨valid, none⟩
  | none, b :: rest =>
    if b.toNat < 0x80 then flawFrom (valid + 1) none rest
    else
      match Pending.ofLead b with
      | none => ⟨valid, some 1⟩
      | some p => flawFrom valid (some (p, 1)) rest
  | some (p, width), b :: rest =>
    match p.add? b with
    | none => ⟨valid, some width⟩
    | some p =>
      if p.owed = 0 then flawFrom (valid + width + 1) none rest
      else flawFrom valid (some (p, width + 1)) rest

/-- The flaw of bytes that are no text. -/
def utf8Flaw (bytes : List UInt8) : Utf8Flaw := flawFrom 0 none bytes

end RowStore.Text
