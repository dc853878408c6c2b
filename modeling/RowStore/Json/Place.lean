import RowStore.Json.Problem
import RowStore.Text.Utf8

/-!
# Where a JSON text goes wrong

A problem has a place: its line, and how many bytes of that line are read with the byte that does
not fit. While a text is read, what remains of it tells how far the reading has come. A `Stop` is
a problem with what remains, a `Misread` is the problem with its place.
-/

namespace RowStore.Json

/-- Lines count from one, columns in bytes. -/
structure Place where
  line : Nat
  column : Nat
  deriving DecidableEq

namespace Place

def isLineFeed (b : UInt8) : Bool := b = 0x0A

def after (read : List UInt8) : Place :=
  ⟨read.countP isLineFeed + 1, (read.reverse.takeWhile fun b => !isLineFeed b).length⟩

def message (p : Place) : String :=
  " at line " ++ natText p.line ++ " column " ++ natText p.column

theorem after_nil : after [] = ⟨1, 0⟩ := rfl

/-- A line feed ends its line. -/
theorem after_concat_lineFeed (read : List UInt8) :
    after (read ++ [0x0A]) = ⟨(after read).line + 1, 0⟩ := by
  simp [after, isLineFeed]

theorem after_concat (read : List UInt8) (b : UInt8) (h : b ≠ 0x0A) :
    after (read ++ [b]) = ⟨(after read).line, (after read).column + 1⟩ := by
  simp [after, isLineFeed, h]

end Place

/-! ## Problems in their places -/

structure Misread where
  problem : Problem
  place : Place
  deriving DecidableEq

def Misread.message (m : Misread) : String := m.problem.message ++ m.place.message

inductive Spot where
  /-- So many bytes of what remains are read too, or all if there are fewer. -/
  | remaining (rest : List Char) (taken : Nat)
  /-- The reading is at a place of a text inside the text. -/
  | inside (place : Place)
  deriving DecidableEq

def Spot.placeIn (text : String) : Spot → Place
  | remaining rest taken =>
    let bytes := Text.utf8Bytes text
    .after (bytes.take (bytes.length - ((String.ofList rest).utf8ByteSize - taken)))
  | inside place => place

/-- Why a reading does not go on, and how far it has come. -/
structure Stop where
  problem : Problem
  spot : Spot
  deriving DecidableEq

namespace Stop

/-- The next byte does not fit, or it is missing. -/
def next (rest : List Char) (problem : Problem) : Stop := ⟨problem, .remaining rest 1⟩

/-- What is read up to here does not fit. -/
def here (rest : List Char) (problem : Problem) : Stop := ⟨problem, .remaining rest 0⟩

/-- A text inside the text does not fit. -/
def ofMisread (m : Misread) : Stop := ⟨m.problem, .inside m.place⟩

def misread (text : String) (s : Stop) : Misread := ⟨s.problem, s.spot.placeIn text⟩

end Stop

end RowStore.Json
