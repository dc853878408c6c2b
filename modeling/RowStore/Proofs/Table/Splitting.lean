import Mathlib
import RowStore.Proofs.Record
import RowStore.Proofs.Table.Basic

/-!
# Statements that share a batch

Under different limits a batch is cut at different places, and the same row is written with other
columns: a field that only other rows of its statement have is `NULL`, and one that only other
statements have is not listed. A table cannot tell. It ends as if the rows were put one by one.
-/

namespace RowStore

open Batch (Insertable Limits Plan Verb cellsOf chunksOf columnsOf fieldUnion insertOf pieceOf plan)
open Sql (Insert Literal)

/-! ## Records in a table -/

def Record.literalOf (r : Record) (name : String) : Literal :=
  (r.get? name).elim .null Value.literal

/-- A record as a statement of its own lists it. -/
def Listing.ofRecord (r : Record) : Listing :=
  r.fields.map (Prod.map ColumnName.ofField Value.literal)

/-- A record as a statement with some fields lists it. -/
def Listing.among (names : List String) (r : Record) : Listing :=
  (names.map ColumnName.ofField).zip (cellsOf names r)

variable {κ : Type} {l : Layout κ} {table : String} {rows : List Record}

/-- A batch for a table: each record has an id that is not `NULL`, and no two fields share a
column. -/
structure Layout.Takes (l : Layout κ) (table : String) (rows : List Record) : Prop where
  named : l.path = Sql.pathNames table
  known : ∀ name ∈ fieldUnion rows, ColumnName.ofField name ∈ l.columns
  apart : ∀ name ∈ fieldUnion rows, ∀ other ∈ fieldUnion rows,
    ColumnName.ofField name = ColumnName.ofField other → name = other
  identified : ∀ r ∈ rows, r.literalOf "id" ≠ .null

/-! ## What a row has in a column -/

namespace Listing

theorem cell_of_notMem {row : Listing} {column : String} (h : column ∉ row.columns) :
    row.cell column = .null := by
  rw [cell, lookup_eq_none_of_notMem h, Option.getD_none]

theorem columns_ofRecord (r : Record) : (ofRecord r).columns = r.names.map ColumnName.ofField := by
  simp [ofRecord, columns, Record.names, Function.comp_def]

theorem among_eq (names : List String) (r : Record) :
    among names r = (names.map fun name => (name, r.literalOf name)).map
      (Prod.map ColumnName.ofField id) := by
  simp [among, cellsOf, Record.literalOf, List.zip_map', Function.comp_def]

theorem columns_among (names : List String) (r : Record) :
    (among names r).columns = names.map ColumnName.ofField := by
  simp [among_eq, columns, Function.comp_def]

end Listing

theorem mem_fieldUnion_of_mem {r : Record} (hr : r ∈ rows) {name : String} (h : name ∈ r.names) :
    name ∈ fieldUnion rows :=
  Batch.mem_fieldUnion.mpr ⟨r, hr, h⟩

namespace Layout.Takes

theorem cell_ofRecord (takes : l.Takes table rows) {r : Record} (hr : r ∈ rows) {name : String}
    (h : name ∈ fieldUnion rows) :
    (Listing.ofRecord r).cell (ColumnName.ofField name) = r.literalOf name := by
  have found := Record.lookup_renamed ColumnName.ofField Value.literal r.fields name fun other mem =>
    takes.apart name h other (mem_fieldUnion_of_mem hr mem)
  rw [Listing.cell, Listing.ofRecord, found, Record.literalOf, Record.get?]
  cases r.fields.lookup name <;> rfl

theorem cell_among (takes : l.Takes table rows) {names : List String} {r : Record}
    (within : ∀ name ∈ names, name ∈ fieldUnion rows) (all : ∀ name ∈ r.names, name ∈ names)
    {name : String} (h : name ∈ fieldUnion rows) :
    (Listing.among names r).cell (ColumnName.ofField name) = r.literalOf name := by
  have found := Record.lookup_renamed ColumnName.ofField id
    (names.map fun name => (name, r.literalOf name)) name fun other mem =>
      takes.apart name h other (within other (by simpa using mem))
  rw [Listing.cell, Listing.among_eq, found]
  by_cases listed : name ∈ names
  · rw [List.lookup_graph _ listed]
    rfl
  · have missing : r.get? name = none := lookup_eq_none_of_notMem fun mem => listed (all name mem)
    rw [lookup_eq_none_of_notMem (by simpa using listed), Record.literalOf, missing]
    rfl

theorem cell_among_eq (takes : l.Takes table rows) {names : List String} {r : Record}
    (hr : r ∈ rows) (within : ∀ name ∈ names, name ∈ fieldUnion rows)
    (all : ∀ name ∈ r.names, name ∈ names) :
    (Listing.among names r).cell = (Listing.ofRecord r).cell := by
  funext column
  -- A column belongs to one field of the batch, or both listings leave it out.
  by_cases h : ∃ name ∈ fieldUnion rows, ColumnName.ofField name = column
  · obtain ⟨name, h, rfl⟩ := h
    rw [takes.cell_among within all h, takes.cell_ofRecord hr h]
  · rw [Listing.cell_of_notMem, Listing.cell_of_notMem]
    · rw [Listing.columns_ofRecord, List.mem_map]
      rintro ⟨name, mem, same⟩
      exact h ⟨name, mem_fieldUnion_of_mem hr mem, same⟩
    · rw [Listing.columns_among, List.mem_map]
      rintro ⟨name, mem, same⟩
      exact h ⟨name, within name mem, same⟩

theorem mono (takes : l.Takes table rows) {part : List Record} (h : ∀ r ∈ part, r ∈ rows) :
    l.Takes table part := by
  have within (name : String) (mem : name ∈ fieldUnion part) : name ∈ fieldUnion rows := by
    obtain ⟨r, hr, mem⟩ := Batch.mem_fieldUnion.mp mem
    exact mem_fieldUnion_of_mem (h r hr) mem
  exact ⟨takes.named, fun name mem => takes.known name (within name mem),
    fun name mem other mem' => takes.apart name (within name mem) other (within other mem'),
    fun r hr => takes.identified r (h r hr)⟩

theorem id_mem (takes : l.Takes table rows) {r : Record} (hr : r ∈ rows) : "id" ∈ r.names := by
  by_contra missing
  have missing : r.get? "id" = none := lookup_eq_none_of_notMem missing
  apply takes.identified r hr
  rw [Record.literalOf, missing]
  rfl

theorem cell_id (takes : l.Takes table rows) {r : Record} (hr : r ∈ rows) :
    (Listing.ofRecord r).cell "id" = r.literalOf "id" :=
  takes.cell_ofRecord hr (mem_fieldUnion_of_mem hr (takes.id_mem hr))

theorem fits_of_columns (takes : l.Takes table rows) {row : Listing} {names : List String}
    (columns : row.columns = names.map ColumnName.ofField) (distinct : names.Nodup)
    (within : ∀ name ∈ names, name ∈ fieldUnion rows) (identified : row.cell "id" ≠ .null) :
    l.Fits row where
  distinct := by
    rw [columns]
    exact distinct.map_on fun name h other h' =>
      takes.apart name (within name h) other (within other h')
  known := by
    rw [columns, List.forall_mem_map]
    exact fun name h => takes.known name (within name h)
  identified := identified

theorem fits_ofRecord (takes : l.Takes table rows) {r : Record} (hr : r ∈ rows) :
    l.Fits (.ofRecord r) :=
  takes.fits_of_columns (Listing.columns_ofRecord r) r.nodup (fun _ => mem_fieldUnion_of_mem hr)
    (takes.cell_id hr ▸ takes.identified r hr)

end Layout.Takes

/-! ## The fields of a statement -/

theorem nodup_columnsOf (rows chunk : List Record) : (columnsOf rows chunk).Nodup := by
  rw [← Batch.fieldsWithin_eq_columnsOf]
  exact (Batch.nodup_fieldUnion rows).sublist (Batch.fieldsWithin_sublist _ chunk)

theorem mem_fieldUnion_of_columnsOf {chunk : List Record} {name : String}
    (h : name ∈ columnsOf rows chunk) : name ∈ fieldUnion rows := by
  rw [← Batch.fieldsWithin_eq_columnsOf] at h
  exact (Batch.fieldsWithin_sublist _ chunk).subset h

theorem mem_columnsOf {chunk : List Record} {r : Record} (hr : r ∈ rows) (hchunk : r ∈ chunk)
    {name : String} (h : name ∈ r.names) : name ∈ columnsOf rows chunk := by
  rw [columnsOf, List.mem_filter, List.mem_eraseDups, List.mem_flatMap, List.any_eq_true]
  exact ⟨⟨r, hr, h⟩, r, hchunk, by simpa using h⟩

/-! ## Statements -/

namespace Table

variable [DecidableEq κ] {t : Table l} {verb : Verb}

theorem put_among (takes : l.Takes table rows) {chunk : List Record} {r : Record} (hr : r ∈ rows)
    (hchunk : r ∈ chunk) :
    t.put verb (.among (columnsOf rows chunk) r) = t.put verb (.ofRecord r) := by
  have same := takes.cell_among_eq hr (fun _ => mem_fieldUnion_of_columnsOf)
    (fun _ => mem_columnsOf hr hchunk)
  have fits := takes.fits_ofRecord hr
  refine put_congr ?_ fits same
  exact takes.fits_of_columns (Listing.columns_among _ r) (nodup_columnsOf rows chunk)
    (fun _ => mem_fieldUnion_of_columnsOf) (same ▸ fits.identified)

theorem carryOut_insertOf (takes : l.Takes table rows) {chunk : List Record}
    (h : ∀ r ∈ chunk, r ∈ rows) :
    t.carryOut (insertOf verb table rows chunk) = t.putAll verb (chunk.map Listing.ofRecord) := by
  have named : [Verb.insert, .replace].find? (fun v => v.text = verb.text) = some verb := by
    cases verb <;> rfl
  have shape : (insertOf verb table rows chunk).path = l.path ∧
      ∀ row ∈ (insertOf verb table rows chunk).rows,
        row.length = (insertOf verb table rows chunk).columns.length := by
    simp [insertOf, takes.named, cellsOf]
  have listed : (insertOf verb table rows chunk).rows.map
      (insertOf verb table rows chunk).columns.zip =
        chunk.map (Listing.among (columnsOf rows chunk)) := by
    simp [insertOf, Listing.among, Function.comp_def]
  calc t.carryOut (insertOf verb table rows chunk)
      = t.putAll verb (chunk.map (Listing.among (columnsOf rows chunk))) := by
        unfold carryOut
        rw [show (insertOf verb table rows chunk).verb = verb.text from rfl, named,
          Option.bind_eq_bind, Option.bind_some, if_pos shape, listed]
    _ = t.putAll verb (chunk.map Listing.ofRecord) := by
        apply putAll_congr
        rw [List.forall₂_map_left_iff, List.forall₂_map_right_iff, List.forall₂_same]
        exact fun r mem t => put_among takes (h r mem) mem

theorem executeAll_pieces (takes : l.Takes table rows) {chunks : List (List Record)}
    (filled : ∀ chunk ∈ chunks, chunk ≠ []) (within : ∀ chunk ∈ chunks, ∀ r ∈ chunk, r ∈ rows) :
    t.executeAll (chunks.map fun chunk => (pieceOf verb table (fieldUnion rows) chunk).sql) =
      t.putAll verb (chunks.flatten.map Listing.ofRecord) := by
  induction chunks generalizing t with
  | nil => rfl
  | cons chunk rest ih =>
    obtain ⟨first, filled⟩ := List.forall_mem_cons.mp filled
    obtain ⟨own, within⟩ := List.forall_mem_cons.mp within
    have executed : t.execute (pieceOf verb table (fieldUnion rows) chunk).sql =
        t.putAll verb (chunk.map Listing.ofRecord) := by
      rw [execute, Batch.readBack?_pieceOf verb table rows chunk first, Option.bind_some,
        carryOut_insertOf takes own]
    rw [List.map_cons, executeAll, List.foldlM_cons, executed, List.flatten_cons, List.map_append,
      putAll_append]
    exact congrArg _ (funext fun t => ih filled within)

theorem exists_chunks {limits : Limits} {p : Plan} (h : plan limits verb table rows = .ok p) :
    ∃ chunks : List (List Record), chunks.flatten = rows ∧ (∀ chunk ∈ chunks, chunk ≠ []) ∧
      p.statements = chunks.map fun chunk => (pieceOf verb table (fieldUnion rows) chunk).sql := by
  obtain rfl | hne := eq_or_ne rows []
  · obtain rfl := Except.ok.inj (Batch.plan_nil.symm.trans h)
    exact ⟨[], rfl, by simp, rfl⟩
  · refine ⟨chunksOf limits verb table rows, Batch.flatten_chunksOf limits verb table rows,
      Batch.ne_nil_of_mem_chunksOf limits verb table rows hne, ?_⟩
    rw [Plan.statements, Batch.plan_pieces hne h, List.map_map]
    rfl

theorem executeAll_take (takes : l.Takes table rows) {limits : Limits} {p : Plan}
    (h : plan limits verb table rows = .ok p) (n : Nat) :
    ∃ done, done <+: rows ∧
      t.executeAll (p.statements.take n) = t.putAll verb (done.map Listing.ofRecord) := by
  obtain ⟨chunks, rfl, filled, statements⟩ := exists_chunks h
  refine ⟨(chunks.take n).flatten, ⟨(chunks.drop n).flatten, ?_⟩, ?_⟩
  · rw [← List.flatten_append, List.take_append_drop]
  · rw [statements, ← List.map_take]
    refine executeAll_pieces takes (fun chunk mem => filled chunk (List.mem_of_mem_take mem)) ?_
    exact fun chunk mem r hr => List.mem_flatten_of_mem (List.mem_of_mem_take mem) hr

theorem executeAll_plan (takes : l.Takes table rows) {limits : Limits} {p : Plan}
    (h : plan limits verb table rows = .ok p) :
    t.executeAll p.statements = t.putAll verb (rows.map Listing.ofRecord) := by
  obtain ⟨chunks, rfl, filled, statements⟩ := exists_chunks h
  rw [statements]
  exact executeAll_pieces takes filled fun chunk mem r hr => List.mem_flatten_of_mem mem hr

/-! ## Other limits -/

theorem exists_putAll_ofRecord (t : Table l) (verb : Verb) (takes : l.Takes table rows)
    (new : verb = .insert → (rows.map fun r => l.key (r.literalOf "id")).Nodup ∧
      ∀ r ∈ rows, t.rows (l.key (r.literalOf "id")) = none) :
    ∃ final, t.putAll verb (rows.map Listing.ofRecord) = some final := by
  have keys (r : Record) (hr : r ∈ rows) :
      l.keyOf (.ofRecord r) = l.key (r.literalOf "id") := by
    rw [Layout.keyOf, takes.cell_id hr]
  have listed : (rows.map Listing.ofRecord).map l.keyOf =
      rows.map fun r => l.key (r.literalOf "id") := by
    rw [List.map_map]
    exact List.map_congr_left keys
  apply exists_putAll
  · rw [List.forall_mem_map]
    exact fun r hr => takes.fits_ofRecord hr
  · intro inserts
    obtain ⟨distinct, free⟩ := new inserts
    rw [listed, List.forall_mem_map]
    exact ⟨distinct, fun r hr => (keys r hr).symm ▸ free r hr⟩

theorem exists_plan_iff (limits : Limits) (verb : Verb) (table : String) (rows : List Record) :
    (∃ p, plan limits verb table rows = .ok p) ↔ rows = [] ∨ Insertable table rows := by
  obtain rfl | hne := eq_or_ne rows []
  · exact iff_of_true ⟨_, Batch.plan_nil⟩ (.inl rfl)
  · rw [or_iff_right hne]
    constructor
    · rintro ⟨p, h⟩
      exact Batch.insertable_of_plan hne h
    · intro h
      obtain ⟨entries, h⟩ := Batch.plan_eq hne h
      exact ⟨_, h⟩

/-- Whether a batch has a plan does not depend on the limits, and neither does the table that the
statements of the plan leave: it is the one that the rows leave when they are put one by one. Rows
that are to be new must have ids that are not there yet, each its own. -/
theorem splits_agree (t : Table l) (verb : Verb) (takes : l.Takes table rows)
    (new : verb = .insert → (rows.map fun r => l.key (r.literalOf "id")).Nodup ∧
      ∀ r ∈ rows, t.rows (l.key (r.literalOf "id")) = none) :
    ∃ final, t.putAll verb (rows.map Listing.ofRecord) = some final ∧
      ∀ limits, ((∃ p, plan limits verb table rows = .ok p) ↔ rows = [] ∨ Insertable table rows) ∧
        ∀ p, plan limits verb table rows = .ok p → t.executeAll p.statements = some final := by
  obtain ⟨final, put⟩ := exists_putAll_ofRecord t verb takes new
  refine ⟨final, put, fun limits => ⟨exists_plan_iff limits verb table rows, fun p h => ?_⟩⟩
  exact (executeAll_plan takes h).trans put

/-- Rows with different fields, the first and the last of them for one id. -/
def mixedRows : List Record :=
  [⟨[("id", .int 1), ("a.b", .text "x")], by decide⟩,
    ⟨[("c", .bool true), ("id", .int 2)], by decide⟩,
    ⟨[("id", .int 1), ("c", .bool false)], by decide⟩]

def plainLayout : Layout Literal where
  path := ["t"]
  columns := ["id", "a_dot_b", "c"]
  key := id
  identified := by decide

theorem takes_mixedRows : plainLayout.Takes "t" mixedRows := by
  have fields : fieldUnion mixedRows = ["id", "a.b", "c"] := by cbv
  constructor
  · cbv
  · rw [fields]
    decide
  · rw [fields]
    decide
  · decide

/-- Three statements that replace leave the table that one leaves: the last row for an id stays, and
nothing of the row before it. Without that last row the rest can be new rows, in one statement or in
two. -/
theorem splits_agree_mixedRows :
    (∃ p p' final, plan ⟨1000, 1000⟩ .replace "t" mixedRows = .ok p ∧
      plan ⟨60, 10⟩ .replace "t" mixedRows = .ok p' ∧
      p.statements.length = 1 ∧ p'.statements.length = 3 ∧
      (empty plainLayout).executeAll p.statements = some final ∧
      (empty plainLayout).executeAll p'.statements = some final ∧
      final.rows (.number "1") = some [.number "1", .null, .bool false]) ∧
    ∃ p p' final, plan ⟨1000, 1000⟩ .insert "t" (mixedRows.take 2) = .ok p ∧
      plan ⟨60, 10⟩ .insert "t" (mixedRows.take 2) = .ok p' ∧
      p.statements.length = 1 ∧ p'.statements.length = 2 ∧
      (empty plainLayout).executeAll p.statements = some final ∧
      (empty plainLayout).executeAll p'.statements = some final ∧
      final.rows (.number "1") = some [.number "1", .string "x", .null] := by
  constructor
  · obtain ⟨final, put, agree⟩ := splits_agree (empty plainLayout) .replace takes_mixedRows
      fun h => by cases h
    have last : ((empty plainLayout).putAll .replace (mixedRows.map Listing.ofRecord)).map
        (fun t => t.rows (.number "1")) = some (some [.number "1", .null, .bool false]) := rfl
    rw [put] at last
    exact ⟨_, _, final, rfl, rfl, rfl, rfl, (agree ⟨1000, 1000⟩).2 _ rfl,
      (agree ⟨60, 10⟩).2 _ rfl, Option.some.inj last⟩
  · have takes : plainLayout.Takes "t" (mixedRows.take 2) :=
      takes_mixedRows.mono fun _ => List.mem_of_mem_take
    obtain ⟨final, put, agree⟩ := splits_agree (empty plainLayout) .insert takes
      fun _ => ⟨by decide, fun _ _ => rfl⟩
    have first : ((empty plainLayout).putAll .insert ((mixedRows.take 2).map Listing.ofRecord)).map
        (fun t => t.rows (.number "1")) = some (some [.number "1", .string "x", .null]) := rfl
    rw [put] at first
    exact ⟨_, _, final, rfl, rfl, rfl, rfl, (agree ⟨1000, 1000⟩).2 _ rfl,
      (agree ⟨60, 10⟩).2 _ rfl, Option.some.inj first⟩

end Table

end RowStore
