import RowStore.Proofs.Batch.Columns
import RowStore.Proofs.Batch.Packing
import RowStore.Proofs.Checks
import RowStore.Proofs.ColumnName
import RowStore.Proofs.Sql.Statement

/-!
# The statements of a plan

A plan has one statement for each chunk of rows, and the statement of a chunk depends on its own
rows and on the fields of the batch only. That a chunk can use texts made for the whole batch
changes nothing about its statement.
-/

namespace RowStore.Batch

/-! ## Rows that can be inserted -/

theorem checkRow_eq_ok {r : Record} :
    checkRow r = .ok () ↔
      ∀ f ∈ r.fields, ColumnName.ofField? f.1 = .ok (ColumnName.ofField f.1) ∧
        f.2.isStructured = false := by
  unfold checkRow
  rw [Checks.forM_eq_ok]
  refine forall₂_congr fun f _ => ?_
  obtain ⟨name, value⟩ := f
  dsimp only
  rw [Checks.bind_eq_ok]
  constructor
  · rintro ⟨column, hcolumn, h⟩
    obtain ⟨-, -, rfl⟩ := (ColumnName.ofField?_eq_ok_iff name column).mp hcolumn
    refine ⟨hcolumn, ?_⟩
    split at h
    · exact absurd h Checks.throw_ne_ok
    · rename_i hstructured
      exact Bool.of_not_eq_true hstructured
  · rintro ⟨hcolumn, h⟩
    exact ⟨_, hcolumn, by simp [h, Checks.pure_eq_ok]⟩

/-- A batch that nothing speaks against. -/
def Insertable (table : String) (rows : List Record) : Prop :=
  Text.blankOnly table = false ∧ ∀ r ∈ rows, checkRow r = .ok ()

theorem Insertable.ofField? {table : String} {rows : List Record} (h : Insertable table rows) :
    ∀ name ∈ fieldUnion rows, ColumnName.ofField? name = .ok (ColumnName.ofField name) := by
  intro name hname
  obtain ⟨r, hr, hname⟩ := mem_fieldUnion.mp hname
  obtain ⟨f, hf, rfl⟩ := List.mem_map.mp hname
  exact (checkRow_eq_ok.mp (h.2 r hr) f hf).1

/-! ## Headers and statements -/

theorem readable_rowLiterals (names : List String) (r : Record) :
    ∀ l ∈ rowLiterals names r, l.Readable := by
  intro l hl
  obtain ⟨name, -, rfl⟩ := List.mem_map.mp hl
  exact Sql.readable_literal _

/-- All of a statement but its rows, for any columns. -/
def headerText (verb : Verb) (table : String) (columns : List String) : String :=
  verb.text ++ " INTO " ++ Sql.quotePath table ++ " (" ++ Sql.namesText columns ++ ") VALUES "

theorem header_eq_ok {verb : Verb} {table : String} {names : List String}
    (h : ∀ name ∈ names, ColumnName.ofField? name = .ok (ColumnName.ofField name)) :
    header verb table names = .ok (headerText verb table (names.map ColumnName.ofField)) := by
  rw [header, Checks.mapM_eq_map h]
  rfl

theorem header_eq_ok_iff {verb : Verb} {table : String} {names : List String} {text : String} :
    header verb table names = .ok text ↔
      (∀ name ∈ names, ColumnName.ofField? name = .ok (ColumnName.ofField name)) ∧
        text = headerText verb table (names.map ColumnName.ofField) := by
  constructor
  · intro h
    obtain ⟨columns, hcolumns, -⟩ := Checks.bind_eq_ok.mp h
    have hnames := (ColumnName.mapM_ofField?_eq_ok hcolumns).2
    rw [header_eq_ok hnames] at h
    exact ⟨hnames, (Except.ok.inj h).symm⟩
  · rintro ⟨hnames, rfl⟩
    exact header_eq_ok hnames

/-- The statement of some rows of a batch with the fields `names`. -/
def pieceOf (verb : Verb) (table : String) (names : List String) (chunk : List Record) : Piece :=
  let own := fieldsWithin names chunk
  assemble (headerText verb table (own.map ColumnName.ofField)) (chunk.map (rowText own))

theorem rows_pieceOf (verb : Verb) (table : String) (names : List String)
    (chunk : List Record) : (pieceOf verb table names chunk).rows = chunk.length := by
  simp [pieceOf, assemble]

theorem chunkPiece_eq {verb : Verb} {table : String} {names : List String}
    (h : ∀ name ∈ names, ColumnName.ofField? name = .ok (ColumnName.ofField name))
    (chunk : List Record) :
    chunkPiece verb table names (headerText verb table (names.map ColumnName.ofField))
      (chunk.map fun r => (r, rowText names r)) = .ok (pieceOf verb table names chunk) := by
  have hrows : (chunk.map fun r => (r, rowText names r)).map (·.1) = chunk := by
    simp [Function.comp_def]
  have htexts : (chunk.map fun r => (r, rowText names r)).map (·.2) =
      chunk.map (rowText names) := by simp
  have hown : ∀ name ∈ fieldsWithin names chunk,
      ColumnName.ofField? name = .ok (ColumnName.ofField name) :=
    fun name hname => h name ((fieldsWithin_sublist names chunk).subset hname)
  simp only [chunkPiece, hrows, htexts, pieceOf]
  split
  · rename_i hlength
    rw [fieldsWithin_eq_of_length hlength]
    rfl
  · rw [header_eq_ok hown]
    rfl

/-! ## Sizes -/

theorem bytesOf_eq (texts : List String) : bytesOf texts = (texts.map String.utf8ByteSize).sum := by
  induction texts with
  | nil => rfl
  | cons s texts ih =>
    rw [List.map_cons, List.sum_cons, ← ih]
    rfl

theorem intercalate_size (texts : List String) :
    (separator.intercalate texts).utf8ByteSize = packedSize String.utf8ByteSize texts := by
  induction texts with
  | nil => rfl
  | cons s texts ih =>
    cases texts with
    | nil => simp [packedSize_singleton]
    | cons t texts =>
      rw [String.intercalate_cons_cons, packedSize_cons s (t :: texts) (by simp), ← ih,
        String.utf8ByteSize_append, String.utf8ByteSize_append]
      omega

theorem wholeSize_eq (header : String) (tuples : List String) :
    wholeSize header tuples = header.utf8ByteSize + packedSize String.utf8ByteSize tuples := by
  rw [wholeSize, packedSize, bytesOf_eq]
  omega

theorem assemble_size (header : String) (tuples : List String) :
    (assemble header tuples).sql.utf8ByteSize = wholeSize header tuples := by
  rw [assemble, String.utf8ByteSize_append, intercalate_size, wholeSize_eq]

/-- The bytes of one statement for all rows. -/
def batchSize (verb : Verb) (table : String) (rows : List Record) : Nat :=
  let names := fieldUnion rows
  wholeSize (headerText verb table (names.map ColumnName.ofField)) (rows.map (rowText names))

/-! ## Plans -/

/-- The rows of each statement: all of them if they fit into a packet, or packed chunks. -/
def chunksOf (limits : Limits) (verb : Verb) (table : String) (rows : List Record) :
    List (List Record) :=
  if batchSize verb table rows ≤ limits.packet then [rows]
  else pack (fun r => (rowText (fieldUnion rows) r).utf8ByteSize) limits.threshold rows

theorem flatten_chunksOf (limits : Limits) (verb : Verb) (table : String) (rows : List Record) :
    (chunksOf limits verb table rows).flatten = rows := by
  unfold chunksOf
  split
  · simp
  · exact flatten_pack rows

theorem ne_nil_of_mem_chunksOf (limits : Limits) (verb : Verb) (table : String)
    (rows : List Record) (hne : rows ≠ []) : ∀ c ∈ chunksOf limits verb table rows, c ≠ [] := by
  unfold chunksOf
  split
  · simpa using hne
  · exact ne_nil_of_mem_pack rows

section

variable {limits : Limits} {verb : Verb} {table : String} {rows : List Record} {p : Plan}

theorem plan_nil : plan limits verb table [] = .ok ⟨[], []⟩ := rfl

theorem insertable_of_plan (hne : rows ≠ []) (h : plan limits verb table rows = .ok p) :
    Insertable table rows := by
  unfold plan at h
  rw [if_neg (by simpa using hne)] at h
  dsimp only at h
  split at h
  · obtain ⟨_, hthrow, -⟩ := Checks.bind_eq_ok.mp h
    exact absurd hthrow Checks.throw_ne_ok
  · rename_i hblank
    obtain ⟨⟨⟩, hrows, -⟩ := Checks.bind_eq_ok.mp h
    exact ⟨Bool.of_not_eq_true hblank, Checks.forM_eq_ok.mp hrows⟩

theorem zip_rowText (names : List String) (rows : List Record) :
    rows.zip (rows.map (rowText names)) = rows.map fun r => (r, rowText names r) := by
  simpa using List.zip_map' (f := id) (g := rowText names) (l := rows)

theorem plan_eq (hne : rows ≠ []) (h : Insertable table rows) :
    ∃ entries, plan limits verb table rows =
      .ok ⟨(chunksOf limits verb table rows).map (pieceOf verb table (fieldUnion rows)),
        entries⟩ := by
  have hnames := h.ofField?
  have hcheck : rows.forM checkRow = .ok () := Checks.forM_eq_ok.mpr h.2
  have hpieces : ∀ chunks : List (List Record),
      (chunks.map (List.map fun r => (r, rowText (fieldUnion rows) r))).mapM
        (chunkPiece verb table (fieldUnion rows)
          (headerText verb table ((fieldUnion rows).map ColumnName.ofField))) =
        .ok (chunks.map (pieceOf verb table (fieldUnion rows))) := by
    intro chunks
    rw [List.mapM_map]
    exact Checks.mapM_eq_map fun chunk _ => chunkPiece_eq hnames chunk
  unfold plan
  rw [if_neg (by simpa using hne)]
  dsimp only
  rw [if_neg (by simp [h.1]), hcheck, Checks.ok_bind, header_eq_ok hnames, Checks.ok_bind,
    zip_rowText, pack_map]
  unfold chunksOf batchSize
  dsimp only
  split
  · refine ⟨[], ?_⟩
    rw [List.map_singleton, pieceOf, fieldsWithin_fieldUnion]
    rfl
  · rw [Function.comp_def, hpieces, Checks.ok_bind]
    exact ⟨_, rfl⟩

theorem plan_pieces (hne : rows ≠ []) (h : plan limits verb table rows = .ok p) :
    p.pieces = (chunksOf limits verb table rows).map (pieceOf verb table (fieldUnion rows)) := by
  obtain ⟨entries, hplan⟩ : ∃ entries, plan limits verb table rows = .ok ⟨_, entries⟩ :=
    plan_eq hne (insertable_of_plan hne h)
  rw [hplan] at h
  obtain rfl := Except.ok.inj h
  rfl

end

end RowStore.Batch
