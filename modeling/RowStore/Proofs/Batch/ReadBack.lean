import RowStore.Proofs.Batch.Pieces
import RowStore.Proofs.Sql.Insert

/-!
# Reading a plan back

A server reads in the statements of a plan, one after the other, exactly the rows of the batch.
Each statement names the fields that its own rows have, in the order of the batch, and each row has
its literal, or `NULL`, for each of them.
-/

namespace RowStore.Batch

open Sql (Insert Literal)

/-- What a server makes of the text of a statement that inserts rows. -/
def readBack? (sql : String) : Option Insert := (Sql.tokenize sql.toList).bind Sql.readInsert

/-- The names of a batch, each at its first occurrence, that some of the given rows have. -/
def columnsOf (rows chunk : List Record) : List String :=
  (rows.flatMap Record.names).eraseDups.filter fun name =>
    chunk.any fun r => r.names.contains name

/-- What a row has under each name: the literal of its value, or `NULL` without one. -/
def cellsOf (names : List String) (r : Record) : List Literal :=
  names.map fun name => (r.get? name).elim .null Value.literal

/-- What the statement of some rows of a batch should say. -/
def insertOf (verb : Verb) (table : String) (rows chunk : List Record) : Insert where
  verb := verb.text
  path := Sql.pathNames table
  columns := (columnsOf rows chunk).map ColumnName.ofField
  rows := chunk.map (cellsOf (columnsOf rows chunk))

theorem fieldsWithin_eq_columnsOf (rows chunk : List Record) :
    fieldsWithin (fieldUnion rows) chunk = columnsOf rows chunk := by
  rw [fieldsWithin_eq, fieldUnion_eq, columnsOf]

theorem rowLiterals_eq (names : List String) : rowLiterals names = cellsOf names := by
  funext r
  refine List.map_congr_left fun name _ => ?_
  cases r.get? name <;> rfl

/-! ## One statement -/

theorem ends_headerText (verb : Verb) (table : String) (columns : List String) :
    Sql.Ends (headerText verb table columns).toList
      (Sql.words [verb.text, "INTO"] ++ Sql.pathTokens table ++
        Sql.listTokens (columns.map Sql.nameTokens) ++ Sql.words ["VALUES"]) := by
  have hverb : Sql.Ends (verb.text ++ " INTO ").toList (Sql.words [verb.text, "INTO"]) := by
    cases verb with
    | insert => exact Sql.ends_words ["INSERT", "INTO"] (by decide)
    | replace => exact Sql.ends_words ["REPLACE", "INTO"] (by decide)
  have hopen : Sql.Ends " (".toList [.mark '('] :=
    Sql.ends_blank.append (Sql.ends_mark '(' (by simp))
  have hclose : Sql.Ends ") VALUES ".toList ([.mark ')'] ++ Sql.words ["VALUES"]) :=
    (Sql.ends_mark ')' (by simp)).append (Sql.ends_phrase ["VALUES"] (by decide))
  have hpath := (Sql.reads_quotePath table).append_ends (by simp)
    (Sql.stops_cons ' ' _ (by simp)) hopen
  have hcolumns := (Sql.reads_names columns).append_ends (by simp)
    (Sql.stops_cons ')' _ (by simp)) hclose
  have hall := (hverb.append hpath).append hcolumns
  unfold headerText
  simp only [String.toList_append, List.append_assoc, Sql.listTokens] at hall ⊢
  exact hall

theorem reads_pieceOf (verb : Verb) (table : String) (rows chunk : List Record) :
    Sql.Reads (pieceOf verb table (fieldUnion rows) chunk).sql.toList
      (insertOf verb table rows chunk).tokens := by
  have hrows : Sql.Reads
      (separator.intercalate (chunk.map (rowText (columnsOf rows chunk)))).toList
      (Sql.commaTokens ((insertOf verb table rows chunk).rows.map Sql.tupleTokens)) := by
    rw [insertOf, List.map_map, ← rowLiterals_eq]
    exact Sql.reads_comma _ _ chunk fun r _ =>
      (Sql.ends_tuple _ (readable_rowLiterals _ r)).reads
  have hall := (ends_headerText verb table ((columnsOf rows chunk).map ColumnName.ofField))
    |>.append_reads hrows
  rw [pieceOf, fieldsWithin_eq_columnsOf, assemble, String.toList_append]
  exact hall

theorem readBack?_pieceOf (verb : Verb) (table : String) (rows chunk : List Record)
    (h : chunk ≠ []) :
    readBack? (pieceOf verb table (fieldUnion rows) chunk).sql =
      some (insertOf verb table rows chunk) := by
  rw [readBack?, (reads_pieceOf verb table rows chunk).tokenize_eq, Option.bind_some]
  refine Sql.readInsert_tokens _ ?_ (by simpa [insertOf] using h)
  simpa [insertOf, Sql.pathNames] using Sql.segments_ne_nil table.toList

/-! ## All statements -/

theorem readBack_chunks {limits : Limits} {verb : Verb} {table : String} {rows : List Record}
    {p : Plan} (hne : rows ≠ []) (h : plan limits verb table rows = .ok p) :
    List.Forall₂ (fun piece chunk => piece.rows = chunk.length ∧
        readBack? piece.sql = some (insertOf verb table rows chunk))
      p.pieces (chunksOf limits verb table rows) := by
  rw [plan_pieces hne h, List.forall₂_map_left_iff, List.forall₂_same]
  intro chunk hchunk
  have hchunk := ne_nil_of_mem_chunksOf limits verb table rows hne chunk hchunk
  exact ⟨rows_pieceOf _ _ _ _, readBack?_pieceOf verb table rows chunk hchunk⟩

theorem one_piece_of_fits {limits : Limits} {verb : Verb} {table : String} {rows : List Record}
    {p : Plan} (hne : rows ≠ []) (h : plan limits verb table rows = .ok p)
    (hfits : batchSize verb table rows ≤ limits.packet) :
    ∃ piece, p.pieces = [piece] ∧ piece.sql.utf8ByteSize = batchSize verb table rows := by
  refine ⟨pieceOf verb table (fieldUnion rows) rows, ?_, ?_⟩
  · rw [plan_pieces hne h, chunksOf, if_pos hfits, List.map_singleton]
  · rw [pieceOf, fieldsWithin_fieldUnion, assemble_size]
    rfl

/-- The statements of a plan say all rows of the batch, once each and in their order, and a batch
that fits into a packet has one statement of just the bytes it takes. -/
theorem readBack_plan (limits : Limits) (verb : Verb) (table : String) (rows : List Record)
    (p : Plan) (h : plan limits verb table rows = .ok p) :
    (∃ chunks : List (List Record), chunks.flatten = rows ∧ (∀ chunk ∈ chunks, chunk ≠ []) ∧
      List.Forall₂ (fun piece chunk => piece.rows = chunk.length ∧
        readBack? piece.sql = some (insertOf verb table rows chunk)) p.pieces chunks) ∧
    (rows ≠ [] → ∃ shared, header verb table (fieldUnion rows) = .ok shared ∧
      (wholeSize shared (rows.map (rowText (fieldUnion rows))) ≤ limits.packet →
        ∃ piece, p.pieces = [piece] ∧
          piece.sql.utf8ByteSize = wholeSize shared (rows.map (rowText (fieldUnion rows))))) := by
  constructor
  · rcases eq_or_ne rows [] with rfl | hne
    · obtain rfl := Except.ok.inj (plan_nil.symm.trans h)
      exact ⟨[], rfl, by simp, .nil⟩
    · exact ⟨chunksOf limits verb table rows, flatten_chunksOf limits verb table rows,
        ne_nil_of_mem_chunksOf limits verb table rows hne, readBack_chunks hne h⟩
  · intro hne
    exact ⟨_, header_eq_ok (insertable_of_plan hne h).ofField?, one_piece_of_fits hne h⟩

/-- Rows with different fields, and with text that looks like the border between two rows. -/
def hostileRows : List Record :=
  [⟨[("a.b", .int 1), ("c", .text "'), ('")], by decide⟩, ⟨[("c", .null)], by decide⟩,
    ⟨[("d", .int (-5)), ("c", .null)], by decide⟩]

theorem readBack_hostileRows :
    ∃ p, plan ⟨60, 43⟩ .insert "t" hostileRows = .ok p ∧ p.pieces.map (·.rows) = [2, 1] ∧
      ∃ chunks : List (List Record), chunks.flatten = hostileRows ∧
        List.Forall₂ (fun piece chunk => piece.rows = chunk.length ∧
          readBack? piece.sql = some (insertOf .insert "t" hostileRows chunk)) p.pieces chunks := by
  have h : plan ⟨60, 43⟩ .insert "t" hostileRows = .ok ⟨
      [⟨"INSERT INTO `t` (`a_dot_b`, `c`) VALUES (1, '\\'), (\\''), (NULL, NULL)", 2⟩,
        ⟨"INSERT INTO `t` (`c`, `d`) VALUES (NULL, -5)", 1⟩], _⟩ := rfl
  obtain ⟨chunks, hrows, -, hread⟩ := (readBack_plan _ _ _ _ _ h).1
  exact ⟨_, h, rfl, chunks, hrows, hread⟩

end RowStore.Batch
