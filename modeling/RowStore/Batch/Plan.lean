import RowStore.Batch.Limits
import RowStore.ColumnName
import RowStore.Fault
import RowStore.Record
import RowStore.Sql.Statement
import RowStore.Text.Choice

/-!
# Inserting a batch of records

A batch becomes one statement if that fits into a packet, and several statements otherwise. Rows
may differ in their fields: a statement lists the fields of its own rows, and a row without one of
them has `NULL` in its place.
-/

namespace RowStore.Batch

/-- What happens to a row whose key is there already: it fails, or it is replaced. -/
inductive Verb where
  | insert
  | replace
  deriving DecidableEq

namespace Verb

def text : Verb → String
  | insert => "INSERT"
  | replace => "REPLACE"

def words : List (String × Verb) := [("insert", insert), ("replace", replace)]

end Verb

structure Piece where
  sql : String
  rows : Nat

structure Plan where
  pieces : List Piece
  entries : List Entry

namespace Plan

def totalRows (p : Plan) : Nat := p.pieces.foldr (fun piece n => piece.rows + n) 0

def statements (p : Plan) : List String := p.pieces.map (·.sql)

end Plan

/-! ## Columns -/

def addNames (found names : List String) : List String :=
  names.foldl (fun found name => if found.contains name then found else found ++ [name]) found

/-- The field names of all rows, each at its first occurrence. -/
def fieldUnion (rows : List Record) : List String :=
  rows.foldl (fun found r => addNames found r.names) []

/-- The names of those fields that some of the rows have. -/
def fieldsWithin (names : List String) (rows : List Record) : List String :=
  let present := fieldUnion rows
  names.filter present.contains

/-! ## Text -/

def separator : String := ", "

/-- A row can be inserted if its names are columns and none of its values is structured. -/
def checkRow (r : Record) : Except Fault Unit :=
  r.fields.forM fun (name, value) => do
    let _ ← ColumnName.ofField? name
    if value.isStructured then throw (.invalid (.structuredField name))

/-- All of a statement but its rows. -/
def header (verb : Verb) (table : String) (names : List String) : Except Fault String := do
  let columns ← names.mapM ColumnName.ofField?
  return verb.text ++ " INTO " ++ Sql.quotePath table ++ " (" ++ Sql.namesText columns ++
    ") VALUES "

/-- The literals of a row in the order of the columns. -/
def rowLiterals (names : List String) (r : Record) : List Sql.Literal :=
  names.map fun name => ((r.get? name).getD .null).literal

def rowText (names : List String) (r : Record) : String :=
  Sql.Literal.tupleText (rowLiterals names r)

def assemble (header : String) (tuples : List String) : Piece :=
  ⟨header ++ separator.intercalate tuples, tuples.length⟩

/-! ## Splitting -/

/-- Goes on with a chunk of `size` bytes that holds `chunk`, the last row first. -/
def packFrom {α : Type} (bytes : α → Nat) (threshold : Nat) :
    Nat → List α → List α → List (List α)
  | _, chunk, [] => [chunk.reverse]
  | size, chunk, x :: xs =>
    let grown := size + bytes x + separator.utf8ByteSize
    if threshold < grown then chunk.reverse :: packFrom bytes threshold (bytes x) [x] xs
    else packFrom bytes threshold grown (x :: chunk) xs

/-- Consecutive chunks, each as long as the threshold allows. One row alone may be over it. -/
def pack {α : Type} (bytes : α → Nat) (threshold : Nat) : List α → List (List α)
  | [] => []
  | x :: xs => packFrom bytes threshold (bytes x) [x] xs

/-- The statement of a chunk of rows, given with their texts under all the names of the batch. A
chunk that has all of these fields uses the texts as they are. -/
def chunkPiece (verb : Verb) (table : String) (names : List String) (shared : String)
    (chunk : List (Record × String)) : Except Fault Piece := do
  let rows := chunk.map (·.1)
  let own := fieldsWithin names rows
  if own.length = names.length then return assemble shared (chunk.map (·.2))
  let header ← header verb table own
  return assemble header (rows.map (rowText own))

def oversizeEntry (table : String) (packet : Nat) (p : Piece) : Entry where
  level := .warning
  message := "single row exceeds the packet size; emitting it alone"
  details := [("table", .text table), ("bytes", .number p.sql.utf8ByteSize),
    ("max_packet_size", .number packet)]

def splitEntry (verb : Verb) (table : String) (rows bytes statements : Nat) : Entry where
  level := .info
  message := "split bulk " ++ verb.text ++ " into multiple statements"
  details := [("table", .text table), ("rows", .number rows), ("bytes", .number bytes),
    ("statements", .number statements)]

def bytesOf (texts : List String) : Nat := texts.foldr (fun s n => s.utf8ByteSize + n) 0

/-- The bytes of one statement for all rows. -/
def wholeSize (header : String) (tuples : List String) : Nat :=
  header.utf8ByteSize + bytesOf tuples + separator.utf8ByteSize * (tuples.length - 1)

/-- The statements that insert the rows in their order. -/
def plan (limits : Limits) (verb : Verb) (table : String) (rows : List Record) :
    Except Fault Plan := do
  if rows.isEmpty then return ⟨[], []⟩
  if Text.blankOnly table then throw (.invalid .blankInsertTable)
  rows.forM checkRow
  let names := fieldUnion rows
  let shared ← header verb table names
  let tuples := rows.map (rowText names)
  let bytes := wholeSize shared tuples
  if bytes ≤ limits.packet then return ⟨[assemble shared tuples], []⟩
  let chunks := pack (fun row => row.2.utf8ByteSize) limits.threshold (rows.zip tuples)
  let pieces ← chunks.mapM (chunkPiece verb table names shared)
  let oversize := pieces.filter fun p => limits.packet < p.sql.utf8ByteSize
  return ⟨pieces, oversize.map (oversizeEntry table limits.packet) ++
    [splitEntry verb table rows.length bytes pieces.length]⟩

end RowStore.Batch
