import RowStore.Wire.Parameter

/-!
# The packet of parameters

The parameters of one statement travel together: a mark for each that has no value, the types of
all, then the contents. The packet does not say how many there are. A server knows the number from
the placeholders of the statement. It reads no more than these, and fewer if the packet ends first.
-/

namespace RowStore.Wire

/-- Every question mark is a placeholder, wherever it stands. -/
def placeholders (sql : String) : Nat := sql.toList.count '?'

/-- The bytes of a content whose length follows from its type. -/
def contentWidth? (code : Nat) : Option Nat :=
  match code with
  | 1 => some 1
  | 5 | 8 => some 8
  | _ => none

/-! ## Writing -/

/-- A length below 251 is one byte; a longer one stands behind a byte that says how wide it is. -/
def lengthBytes (n : Nat) : List UInt8 :=
  if n < 251 then littleEndian 1 n
  else if n < 0x10000 then 0xFC :: littleEndian 2 n
  else if n < 0x1000000 then 0xFD :: littleEndian 3 n
  else 0xFE :: littleEndian 8 n

/-- The number whose bits are given, the lowest first. -/
def bitsValue (bits : List Bool) : Nat := bits.foldr (fun b n => b.toNat + 2 * n) 0

/-- Eight marks to a byte. -/
def markBytes (marks : List Bool) : List UInt8 :=
  littleEndian ((marks.length + 7) / 8) (bitsValue marks)

namespace Parameter

def typeBytes (p : Parameter) : List UInt8 :=
  [UInt8.ofNat p.code, if p.isUnsigned then 0x80 else 0]

def contentBytes (p : Parameter) : List UInt8 :=
  match p.content with
  | none => []
  | some content =>
    match contentWidth? p.code with
    | some _ => content
    | none => lengthBytes content.length ++ content

end Parameter

/-- The byte after the marks says that types follow. -/
def packet (params : List Parameter) : List UInt8 :=
  markBytes (params.map fun p => p.content.isNone) ++ 1 :: params.flatMap Parameter.typeBytes
    ++ params.flatMap Parameter.contentBytes

/-! ## Reading -/

def readFixed? (count : Nat) (bytes : List UInt8) : Option (List UInt8 × List UInt8) :=
  if count ≤ bytes.length then some (bytes.take count, bytes.drop count) else none

/-- The number that `littleEndian` has written. -/
def ofLittleEndian (bytes : List UInt8) : Nat := bytes.foldr (fun b n => b.toNat + 256 * n) 0

def readLength? : List UInt8 → Option (Nat × List UInt8)
  | [] => none
  | first :: rest =>
    let wide (width : Nat) := (readFixed? width rest).map fun r => (ofLittleEndian r.1, r.2)
    match first.toNat with
    | 0xFC => wide 2
    | 0xFD => wide 3
    | 0xFE => wide 8
    | n => if n < 251 then some (n, rest) else none

/-- The types of so many parameters, or as many as there are, and what follows them. -/
def readTypes : Nat → List UInt8 → List (Nat × Bool) × List UInt8
  | count + 1, code :: flags :: bytes =>
    let (types, rest) := readTypes count bytes
    ((code.toNat, 0x80 ≤ flags) :: types, rest)
  | _, bytes => ([], bytes)

def readContent? (code : Nat) (bytes : List UInt8) : Option (List UInt8 × List UInt8) :=
  match contentWidth? code with
  | some width => readFixed? width bytes
  | none => do
    let (length, rest) ← readLength? bytes
    readFixed? length rest

/-- The parameters of the types that are left, with the marks of those without a value from one
place on. They end before the first one whose content is not there. -/
def readContents (marks : Nat) : Nat → List (Nat × Bool) → List UInt8 → List Parameter
  | _, [], _ => []
  | place, (code, isUnsigned) :: types, bytes =>
    if marks.testBit place then
      ⟨code, isUnsigned, none⟩ :: readContents marks (place + 1) types bytes
    else
      match readContent? code bytes with
      | none => []
      | some (content, rest) =>
        ⟨code, isUnsigned, some content⟩ :: readContents marks (place + 1) types rest

/-- The first `count` parameters of a packet, or those that are whole. Their number tells where the
marks end and where the contents begin. -/
def readPacket (count : Nat) (bytes : List UInt8) : List Parameter :=
  let marks := ofLittleEndian (bytes.take ((count + 7) / 8))
  let (types, rest) := readTypes count (bytes.drop ((count + 7) / 8 + 1))
  readContents marks 0 types rest

/-- The parameters that a server has of a statement. -/
def received (sql : String) (params : List Parameter) : List Parameter :=
  readPacket (placeholders sql) (packet params)

end RowStore.Wire
