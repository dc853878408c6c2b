import RowStore.Calendar.DateTime
import RowStore.Text.Choice
import RowStore.Text.Hex

/-!
# Dates and times read from text

The parts stand in the order year, month, day, hour, minute, second, with the marks of
`DateTime.chars` between them. Blanks may stand before each part; nothing may follow the last.
-/

namespace RowStore.DateTime

open Text (isAsciiDigit isBlank digitsValue)

/-- One to `width` digits after blanks, and what follows them. -/
def readPart? (width : Nat) (cs : List Char) : Option (Nat × List Char) :=
  let cs := cs.dropWhile isBlank
  let ds := (cs.take width).takeWhile isAsciiDigit
  if ds.isEmpty then none else some (digitsValue ds, cs.drop ds.length)

/-- At most four digits, or any number of them after a sign. -/
def readYear? (cs : List Char) : Option (Int × List Char) :=
  match cs.dropWhile isBlank with
  | '-' :: rest => signed rest (-1)
  | '+' :: rest => signed rest 1
  | rest => (readPart? 4 rest).map fun (n, r) => ((n : Int), r)
where
  signed (cs : List Char) (sign : Int) : Option (Int × List Char) :=
    let ds := cs.takeWhile isAsciiDigit
    if ds.isEmpty then none else some (sign * digitsValue ds, cs.dropWhile isAsciiDigit)

def readMark? (c : Char) : List Char → Option (List Char)
  | d :: rest => if c = d then some rest else none
  | [] => none

/-- Nothing, or a point and digits, of which the first nine count. -/
def readFraction? : List Char → Option (Nat × List Char)
  | '.' :: rest =>
    let ds := (rest.take 9).takeWhile isAsciiDigit
    if ds.isEmpty then none
    else some (digitsValue ds * Nat.pow 10 (9 - ds.length), rest.dropWhile isAsciiDigit)
  | cs => some (0, cs)

def readDay? (cs : List Char) : Option ((Int × Nat × Nat) × List Char) := do
  let (year, cs) ← readYear? cs
  let (month, cs) ← readPart? 2 (← readMark? '-' cs)
  let (day, cs) ← readPart? 2 (← readMark? '-' cs)
  return ((year, month, day), cs)

def readDate? (cs : List Char) : Option DateTime := do
  let ((year, month, day), rest) ← readDay? cs
  if rest.isEmpty && isDate year month day then some (midnight year month day) else none

/-- A day and a time. Second sixty is the leap second after second 59. -/
def read? (cs : List Char) : Option DateTime := do
  let ((year, month, day), cs) ← readDay? cs
  let (hour, cs) ← readPart? 2 cs
  let (minute, cs) ← readPart? 2 (← readMark? ':' cs)
  let (second, cs) ← readPart? 2 (← readMark? ':' cs)
  let (nanosecond, rest) ← readFraction? cs
  let leap := second = 60
  let t : DateTime := ⟨year, month, day, hour, minute, if leap then 59 else second,
    if leap then nanosecond + 1000000000 else nanosecond⟩
  if rest.isEmpty && t.isValid then some t else none

end RowStore.DateTime
