import Mathlib
import RowStore.Proofs.Results.Row
import RowStore.Proofs.Store.Scope
import RowStore.Proofs.StoredFields
import RowStore.Proofs.Table.Retry

/-!
# Rows written back

A row that was read is a record under the names of fields. Saved or set under these names, its
values go to the columns that they came from: no name is refused, and no column takes the place of
another.
-/

namespace RowStore

open Batch (Insertable Limits Plan Verb cellsOf chunksOf columnsOf insertOf plan readBack?)
open ColumnName (Dotless ofField ofField? toField)
open Sql (Literal Statement)

/-! ## Fields of columns -/

/-- A column that has a name, without a dot in it. -/
def ColumnName.Proper (column : String) : Prop := column ≠ "" ∧ Dotless column

instance (column : String) : Decidable (ColumnName.Proper column) :=
  inferInstanceAs (Decidable (_ ∧ _))

/-- Each name of the record is the field of a column. -/
def Record.FromColumns (r : Record) : Prop :=
  ∀ name ∈ r.names, ∃ column, ColumnName.Proper column ∧ toField column = name

namespace Record.FromColumns

variable {r : Record} {name : String}

theorem accepted (h : r.FromColumns) (mem : name ∈ r.names) :
    ofField? name = .ok (ofField name) := by
  obtain ⟨column, ⟨named, dotless⟩, rfl⟩ := h name mem
  rw [ColumnName.ofField_toField dotless]
  exact ColumnName.ofField?_toField dotless named

theorem back (h : r.FromColumns) (mem : name ∈ r.names) : toField (ofField name) = name := by
  obtain ⟨column, ⟨-, dotless⟩, rfl⟩ := h name mem
  rw [ColumnName.ofField_toField dotless]

theorem not_badField (h : r.FromColumns) (mem : name ∈ r.names) : ¬ BadField name := by
  intro bad
  obtain ⟨cause, refused⟩ := (refuses_ofField? name).refused bad
  cases refused.symm.trans (h.accepted mem)

end Record.FromColumns

namespace ResultRow

/-! ## Rows that were read -/

/-- The columns whose cells are there. -/
def sources (r : ResultRow) : List String := (presentCells r.columns r.cells).map (·.1)

/-- The record of a row as it is written back. -/
def written (r : ResultRow) : Record := r.toRecord.stringify

variable {r : ResultRow} (proper : ∀ column ∈ r.columns, ColumnName.Proper column)

theorem literalOf_of_written {name : String} {value : Value}
    (h : r.written.get? name = some value) : r.toRecord.literalOf name = value.literal := by
  rw [← Record.literalOf_stringify, Record.literalOf]
  exact congrArg (Option.elim · .null Value.literal) h

theorem mem_columns_of_mem_sources {column : String} (h : column ∈ r.sources) :
    column ∈ r.columns :=
  (presentCells_names_sublist r.columns r.cells).subset h

theorem mem_names_written {name : String} :
    name ∈ r.written.names ↔ ∃ column ∈ r.sources, toField column = name := by
  rw [written, Record.names_stringify, toRecord, recordOfCells_eq, Record.mem_names_ofList]
  simp [sources]

include proper

theorem fromColumns_written : r.written.FromColumns := by
  intro name mem
  obtain ⟨column, source, rfl⟩ := mem_names_written.mp mem
  exact ⟨column, proper column (mem_columns_of_mem_sources source), rfl⟩

theorem mem_columns_written {column : String} :
    column ∈ r.written.names.map ofField ↔ column ∈ r.sources := by
  have dotless {column : String} (source : column ∈ r.sources) : Dotless column :=
    (proper column (mem_columns_of_mem_sources source)).2
  rw [List.mem_map]
  constructor
  · rintro ⟨name, mem, rfl⟩
    obtain ⟨column, source, rfl⟩ := mem_names_written.mp mem
    rwa [ColumnName.ofField_toField (dotless source)]
  · intro source
    exact ⟨toField column, mem_names_written.mpr ⟨column, source, rfl⟩,
      ColumnName.ofField_toField (dotless source)⟩

end ResultRow

/-! ## Rows that are inserted -/

/-- An insert that puts the values of some rows into the columns that they came from. -/
structure PutsBack (verb : Verb) (table : String) (rows : List ResultRow) (i : Sql.Insert) :
    Prop where
  verb : i.verb = verb.text
  path : i.path = Sql.pathNames table
  once : i.columns.Nodup
  columns (column : String) : column ∈ i.columns ↔ ∃ r ∈ rows, column ∈ r.sources
  rows : i.rows = rows.map fun r =>
    i.columns.map fun column => r.toRecord.literalOf (toField column)

theorem mem_columnsOf_iff {rows chunk : List Record} (h : ∀ r ∈ chunk, r ∈ rows) {name : String} :
    name ∈ columnsOf rows chunk ↔ ∃ r ∈ chunk, name ∈ r.names := by
  constructor
  · intro mem
    rw [columnsOf, List.mem_filter, List.any_eq_true] at mem
    obtain ⟨-, r, hr, mem⟩ := mem
    exact ⟨r, hr, by simpa using mem⟩
  · rintro ⟨r, hr, mem⟩
    exact mem_columnsOf (h r hr) hr mem

theorem mem_columnsOf_written {rows chunk : List ResultRow} (within : ∀ r ∈ chunk, r ∈ rows)
    {name : String} :
    name ∈ columnsOf (rows.map ResultRow.written) (chunk.map ResultRow.written) ↔
      ∃ r ∈ chunk, name ∈ r.written.names := by
  rw [mem_columnsOf_iff]
  · simp
  · rw [List.forall_mem_map]
    exact fun r hr => List.mem_map_of_mem (within r hr)

theorem exists_flatten_of_map {α β : Type} (f : α → β) {chunks : List (List β)} {xs : List α}
    (h : chunks.flatten = xs.map f) :
    ∃ parts : List (List α), parts.flatten = xs ∧ parts.map (List.map f) = chunks := by
  induction chunks generalizing xs with
  | nil => exact ⟨[], (List.map_eq_nil_iff.mp h.symm).symm, rfl⟩
  | cons chunk chunks ih =>
    obtain ⟨part, rest, rfl, rfl, hrest⟩ := List.map_eq_append_iff.mp h.symm
    obtain ⟨parts, rfl, rfl⟩ := ih hrest.symm
    exact ⟨part :: parts, rfl, rfl⟩

section

variable {rows : List ResultRow}
variable (proper : ∀ r ∈ rows, ∀ column ∈ r.columns, ColumnName.Proper column)
include proper

theorem putsBack_insertOf (verb : Verb) (table : String) {chunk : List ResultRow}
    (within : ∀ r ∈ chunk, r ∈ rows) :
    PutsBack verb table chunk
      (insertOf verb table (rows.map ResultRow.written) (chunk.map ResultRow.written)) := by
  have back : ∀ name ∈ columnsOf (rows.map ResultRow.written) (chunk.map ResultRow.written),
      toField (ofField name) = name := by
    intro name mem
    obtain ⟨r, hr, named⟩ := (mem_columnsOf_written within).mp mem
    exact (ResultRow.fromColumns_written (proper r (within r hr))).back named
  refine ⟨rfl, rfl, nodup_columns _ (nodup_columnsOf _ _) back, fun column => ?_, ?_⟩
  · have columns (r : ResultRow) (hr : r ∈ chunk) :
        column ∈ r.written.names.map ofField ↔ column ∈ r.sources :=
      ResultRow.mem_columns_written (proper r (within r hr))
    rw [insertOf, List.mem_map]
    constructor
    · rintro ⟨name, mem, rfl⟩
      obtain ⟨r, hr, named⟩ := (mem_columnsOf_written within).mp mem
      exact ⟨r, hr, (columns r hr).mp (List.mem_map_of_mem named)⟩
    · rintro ⟨r, hr, source⟩
      obtain ⟨name, named, rfl⟩ := List.mem_map.mp ((columns r hr).mpr source)
      exact ⟨name, (mem_columnsOf_written within).mpr ⟨r, hr, named⟩, rfl⟩
  · simp only [insertOf, List.map_map]
    refine List.map_congr_left fun r _ => List.map_congr_left fun name mem => ?_
    rw [Function.comp_apply, back name mem, ← Record.literalOf_stringify]
    rfl

theorem exists_plan_written (limits : Limits) (verb : Verb) {table : String}
    (htable : Text.blankOnly table = false) :
    ∃ (p : Plan) (chunks : List (List ResultRow)),
      plan limits verb table (rows.map ResultRow.written) = .ok p ∧ chunks.flatten = rows ∧
      List.Forall₂ (fun piece chunk => ∃ i, readBack? piece.sql = some i ∧
        PutsBack verb table chunk i) p.pieces chunks := by
  have insertable : Insertable table (rows.map ResultRow.written) := by
    refine ⟨htable, List.forall_mem_map.mpr fun r hr => ?_⟩
    rw [Batch.checkRow_eq_ok]
    intro field mem
    refine ⟨(ResultRow.fromColumns_written (proper r hr)).accepted (List.mem_map_of_mem mem), ?_⟩
    obtain ⟨⟨name, value⟩, -, rfl⟩ := List.mem_map.mp mem
    exact value.isStructured_stringify
  rcases eq_or_ne rows [] with rfl | hne
  · exact ⟨_, [], Batch.plan_nil, rfl, .nil⟩
  have hne' : rows.map ResultRow.written ≠ [] := by simpa using hne
  obtain ⟨p, hp⟩ := (Table.exists_plan_iff limits verb table _).mpr (.inr insertable)
  obtain ⟨chunks, hflatten, hchunks⟩ := exists_flatten_of_map ResultRow.written
    (Batch.flatten_chunksOf limits verb table (rows.map ResultRow.written))
  have hread := Batch.readBack_chunks hne' hp
  rw [← hchunks, List.forall₂_map_right_iff] at hread
  refine ⟨p, chunks, hp, hflatten, ?_⟩
  rw [List.forall₂_iff_zip] at hread ⊢
  refine ⟨hread.1, fun {piece chunk} mem => ?_⟩
  have within : ∀ r ∈ chunk, r ∈ rows := fun r hr =>
    hflatten ▸ List.mem_flatten_of_mem (List.of_mem_zip mem).2 hr
  exact ⟨_, (hread.2 mem).2, putsBack_insertOf proper verb table within⟩

end

/-! ## Rows that are changed -/

theorem toField_eq_id {column : String} (h : Dotless column) :
    toField column = "id" ↔ column = "id" := by
  constructor
  · intro same
    rw [← ColumnName.ofField_toField h, same]
    decide
  · rintro rfl
    decide

namespace ResultRow

/-- Assignments that give some columns of a row the values that the row was read with. -/
structure Sets (r : ResultRow) (columns : List String) (assignments : List (String × Literal)) :
    Prop where
  once : (assignments.map (·.1)).Nodup
  columns (column : String) : column ∈ assignments.map (·.1) ↔ column ∈ columns
  values : ∀ a ∈ assignments, a.2 = r.toRecord.literalOf (toField a.1)

variable {r : ResultRow} {patch : Record}
variable (proper : ∀ column ∈ r.columns, ColumnName.Proper column)
variable (part : patch.fields ⊆ r.written.fields)

include part

theorem names_subset_of_part : patch.names ⊆ r.written.names := List.map_subset _ part

include proper

theorem sets_of_part {columns : List String}
    (hcolumns : ∀ column, column ∈ columns ↔ column ∈ r.sources ∧ toField column ∈ patch.names) :
    r.Sets columns (patch.fields.map fun f => (ofField f.1, f.2.literal)) := by
  have written := fromColumns_written proper
  have names := names_subset_of_part part
  refine ⟨?_, fun column => ?_, ?_⟩
  · rw [columns_of_assignments]
    exact nodup_columns _ patch.nodup fun name mem => written.back (names mem)
  · rw [columns_of_assignments, List.mem_map, hcolumns]
    constructor
    · rintro ⟨name, mem, rfl⟩
      refine ⟨(mem_columns_written proper).mp (List.mem_map_of_mem (names mem)), ?_⟩
      rwa [written.back (names mem)]
    · rintro ⟨source, mem⟩
      have dotless := (proper column (mem_columns_of_mem_sources source)).2
      exact ⟨_, mem, ColumnName.ofField_toField dotless⟩
  · rw [List.forall_mem_map]
    rintro ⟨name, value⟩ mem
    have found : r.written.get? name = some value :=
      (lookup_eq_some_iff_mem r.written.nodup name value).mpr (part mem)
    rw [written.back (names (List.mem_map_of_mem mem)), literalOf_of_written found]

theorem exists_update_of_part {q : Query} (htable : Text.blankOnly q.table = false)
    (filled : patch.names ≠ []) (right : ¬ q.Erroneous) (satisfiable : ¬ q.Unsatisfiable)
    (fit : ¬ q.Unfit (.update patch)) :
    ∃ conditions orderings, q.conditions = .ok (some conditions) ∧
      q.orderings = .ok orderings ∧
      q.toUpdate patch = .ok (some (.update q.table
        (patch.fields.map fun f => (ofField f.1, f.2.literal)) conditions orderings q.window)) := by
  have good : ¬ ∃ name ∈ patch.names, BadField name := by
    rintro ⟨name, mem, bad⟩
    exact (fromColumns_written proper).not_badField (names_subset_of_part part mem) bad
  have accepted : ¬ q.Rejected (.update patch) := by
    simp [Query.Rejected, Query.Use.BadPatch, htable, filled, good, right]
  obtain ⟨s, made⟩ := (q.becomes_update patch).made
    (by simp [accepted, satisfiable, fit]) satisfiable
  obtain ⟨_, conditions, orderings, set, hconditions, horderings, rfl⟩ := Query.toUpdate_eq_ok made
  obtain ⟨rfl, -⟩ := Query.assignments_eq_ok set
  exact ⟨conditions, orderings, hconditions, horderings, made⟩

end ResultRow

/-- What is run to change the row that has the id of a row that was read. -/
structure ChangesBack (table : String) (r : ResultRow) (found : Option String) : Prop where
  nothing (h : ∀ column ∈ r.sources, column = "id") : found = none
  update (h : ∃ column ∈ r.sources, column ≠ "id") : ∃ assignments,
    found = some (Statement.update table assignments
      [.compare "id" .eq (r.toRecord.literalOf "id")] [] .all).text ∧
    r.Sets (r.sources.filter (· ≠ "id")) assignments

theorem conditions_ofId (table : String) {id : Value} (h : id ≠ .null) :
    (Query.ofId table id).conditions = .ok (some [.compare "id" .eq id.literal]) := by
  have column : ofField? "id" = .ok "id" := rfl
  have test : (Filter.mk "id" .eq (.value id)).condition =
      .ok (some (.compare "id" .eq id.literal)) := by
    rw [Filter.condition, column]
    cases id with
    | null => exact absurd rfl h
    | _ => rfl
  have filters : (Query.ofId table id).filters = [⟨"id", .eq, .value id⟩] := rfl
  rw [Query.conditions, filters, List.mapM_cons, test]
  rfl

theorem Record.others_subset (r : Record) : r.others.fields ⊆ r.fields :=
  List.filter_sublist.subset

theorem Record.mem_names_others {r : Record} {name : String} :
    name ∈ r.others.names ↔ name ∈ r.names ∧ name ≠ "id" := by
  simp [others, erase, names]

namespace ResultRow

variable {r : ResultRow} (proper : ∀ column ∈ r.columns, ColumnName.Proper column)
include proper

theorem toField_mem_others {column : String} (source : column ∈ r.sources) :
    toField column ∈ r.written.others.names ↔ column ≠ "id" := by
  have dotless := (proper column (mem_columns_of_mem_sources source)).2
  rw [Record.mem_names_others, and_iff_right (mem_names_written.mpr ⟨_, source, rfl⟩), ne_eq,
    toField_eq_id dotless]

theorem others_eq_nil_iff : r.written.others.names = [] ↔ ∀ column ∈ r.sources, column = "id" := by
  constructor
  · intro empty column source
    by_contra other
    exact List.not_mem_nil (empty ▸ (toField_mem_others proper source).mpr other)
  · intro all
    refine List.eq_nil_iff_forall_not_mem.mpr fun name mem => ?_
    obtain ⟨column, source, rfl⟩ := mem_names_written.mp (Record.mem_names_others.mp mem).1
    exact (toField_mem_others proper source).mp mem (all column source)

theorem sets_others : r.Sets (r.sources.filter (· ≠ "id"))
    (r.written.others.fields.map fun f => (ofField f.1, f.2.literal)) := by
  refine sets_of_part proper r.written.others_subset fun column => ?_
  rw [List.mem_filter, and_congr_right_iff]
  intro source
  rw [toField_mem_others proper source, decide_eq_true_eq]

end ResultRow

theorem exists_changesBack {table : String} (htable : Text.blankOnly table = false)
    {r : ResultRow} (proper : ∀ column ∈ r.columns, ColumnName.Proper column)
    (known : r.toRecord.HasId) :
    ∃ found, Store.updateStatement table r.written = .ok found ∧ ChangesBack table r found := by
  obtain ⟨id, hid, hnull⟩ : r.written.HasId := r.toRecord.hasId_stringify.mpr known
  have nothing := ResultRow.others_eq_nil_iff proper
  rw [← Store.others_isEmpty] at nothing
  rw [Store.updateStatement_eq hid hnull]
  split
  · rename_i empty
    refine ⟨none, rfl, fun _ => rfl, ?_⟩
    rintro ⟨column, source, other⟩
    exact absurd (nothing.mp empty column source) other
  · rename_i filled
    obtain ⟨conditions, orderings, hconditions, horderings, made⟩ :=
      ResultRow.exists_update_of_part proper r.written.others_subset (q := .ofId table id) htable
        (mt Store.others_isEmpty.mpr filled) Query.not_erroneous_ofId
        Query.not_unsatisfiable_ofId Query.not_unfit_ofId
    obtain rfl := Option.some.inj (Except.ok.inj
      (hconditions.symm.trans (conditions_ofId table hnull)))
    have unordered : (Query.ofId table id).orderings = .ok [] := rfl
    obtain rfl := Except.ok.inj (horderings.symm.trans unordered)
    rw [Query.statement, made]
    refine ⟨_, rfl, fun all => absurd (nothing.mpr all) filled, fun _ =>
      ⟨_, ?_, ResultRow.sets_others proper⟩⟩
    rw [ResultRow.literalOf_of_written hid]
    rfl

theorem exists_updateStatements {table : String} (htable : Text.blankOnly table = false)
    {rows : List ResultRow} (proper : ∀ r ∈ rows, ∀ column ∈ r.columns, ColumnName.Proper column)
    (known : ∀ r ∈ rows, r.toRecord.HasId) :
    ∃ found, Store.updateStatements table (rows.map ResultRow.written) = .ok (found.filterMap id) ∧
      List.Forall₂ (ChangesBack table) rows found := by
  have all : ∃ found, (rows.map ResultRow.written).mapM (Store.updateStatement table) = .ok found ∧
      List.Forall₂ (ChangesBack table) rows found := by
    induction rows with
    | nil => exact ⟨[], rfl, .nil⟩
    | cons r rows ih =>
      rw [List.forall_mem_cons] at proper known
      obtain ⟨change, made, changes⟩ := exists_changesBack htable proper.1 known.1
      obtain ⟨found, rest, all⟩ := ih proper.2 known.2
      refine ⟨change :: found, ?_, .cons changes all⟩
      rw [List.map_cons, List.mapM_cons, made, rest]
      rfl
  obtain ⟨found, made, changes⟩ := all
  refine ⟨found, ?_, changes⟩
  rw [Store.updateStatements, made]
  rfl

/-! ## Read and written back -/

/-- What was read can be written back to where it came from. A column that has a name without dots
is what becomes of its field, and no two have the same field. Saved as new rows, in place of others
or as changes, and set by a patch, rows that were read address the columns that they came from and
no others. -/
theorem written_where_read :
    (∀ column, ColumnName.Proper column → ofField? (toField column) = .ok column) ∧
    (∀ column other, ColumnName.Proper column → ColumnName.Proper other →
      toField column = toField other → column = other) ∧
    ∀ (table : String) (rows : List ResultRow), Text.blankOnly table = false →
      (∀ r ∈ rows, ∀ column ∈ r.columns, ColumnName.Proper column) →
      (∀ limits verb, ∃ p chunks,
        plan limits verb table (rows.map ResultRow.written) = .ok p ∧ chunks.flatten = rows ∧
        List.Forall₂ (fun piece chunk => ∃ i, readBack? piece.sql = some i ∧
          PutsBack verb table chunk i) p.pieces chunks) ∧
      ((∀ r ∈ rows, r.toRecord.HasId) → ∃ found,
        Store.updateStatements table (rows.map ResultRow.written) =
          .ok (found.filterMap id) ∧
        List.Forall₂ (ChangesBack table) rows found) ∧
      ∀ r ∈ rows, r.sources ≠ [] → ∀ q : Query, q.table = table → ¬ q.Erroneous →
        ¬ q.Unsatisfiable → ¬ q.Unfit (.update r.written) →
        ∃ assignments conditions orderings, r.Sets r.sources assignments ∧
          q.conditions = .ok (some conditions) ∧ q.orderings = .ok orderings ∧
          q.toUpdate r.written =
            .ok (some (.update table assignments conditions orderings q.window)) := by
  refine ⟨fun column proper => ColumnName.ofField?_toField proper.2 proper.1,
    fun column other proper proper' => ColumnName.toField_inj proper.2 proper'.2, ?_⟩
  intro table rows htable proper
  refine ⟨fun limits verb => exists_plan_written proper limits verb htable,
    exists_updateStatements htable proper, ?_⟩
  rintro r mem hsources q rfl right satisfiable fit
  have part : r.written.fields ⊆ r.written.fields := List.Subset.refl _
  have field {column : String} (source : column ∈ r.sources) : toField column ∈ r.written.names :=
    ResultRow.mem_names_written.mpr ⟨column, source, rfl⟩
  have filled : r.written.names ≠ [] := by
    obtain ⟨column, source⟩ := List.exists_mem_of_ne_nil _ hsources
    exact List.ne_nil_of_mem (field source)
  obtain ⟨conditions, orderings, hconditions, horderings, made⟩ :=
    ResultRow.exists_update_of_part (proper r mem) part htable filled right satisfiable fit
  exact ⟨_, conditions, orderings, ResultRow.sets_of_part (proper r mem) part
    fun column => (and_iff_left_of_imp field).symm, hconditions, horderings, made⟩

/-- Two rows with markers that overlap, one of which has no cell in its last column. -/
theorem written_where_read_markers :
    let rows := [ResultRow.ofCells ["id", "_dot_dot_", "_dot__dot_"] [some (.int 1), some (.int 2)],
      .ofCells ["_dot__dot_", "id"] [some .null, some (.int 2)]]
    (∀ r ∈ rows, ∀ column ∈ r.columns, ColumnName.Proper column) ∧
      (∀ r ∈ rows, r.toRecord.HasId) ∧
      rows.map (·.written.names) = [["id", ".dot_"], ["..", "id"]] ∧
      ofField? ".dot_" = .ok "_dot_dot_" ∧
      (∃ p chunks, plan .standard .replace "t" (rows.map ResultRow.written) = .ok p ∧
        chunks.flatten = rows ∧
        List.Forall₂ (fun piece chunk => ∃ i, readBack? piece.sql = some i ∧
          PutsBack .replace "t" chunk i) p.pieces chunks) ∧
      (∃ found, Store.updateStatements "t" (rows.map ResultRow.written) =
          .ok (found.filterMap id) ∧ List.Forall₂ (ChangesBack "t") rows found) ∧
      ∀ r ∈ rows, ∃ assignments, r.Sets r.sources assignments ∧
        (Query.ofTable "t").toUpdate r.written =
          .ok (some (.update "t" assignments [] [] .all)) := by
  intro rows
  have proper : ∀ r ∈ rows, ∀ column ∈ r.columns, ColumnName.Proper column := by
    intro r hr
    rcases List.mem_pair.mp hr with rfl | rfl <;> decide
  have known : ∀ r ∈ rows, r.toRecord.HasId := by
    intro r hr
    rcases List.mem_pair.mp hr with rfl | rfl
    · exact ⟨.int 1, rfl, nofun⟩
    · exact ⟨.int 2, rfl, nofun⟩
  obtain ⟨back, -, written⟩ := written_where_read
  obtain ⟨inserts, updates, patches⟩ := written "t" rows rfl proper
  refine ⟨proper, known, rfl, back "_dot_dot_" (by decide), inserts .standard .replace,
    updates known, fun r hr => ?_⟩
  have filled : r.sources ≠ [] := by
    rcases List.mem_pair.mp hr with rfl | rfl <;> decide
  obtain ⟨assignments, conditions, orderings, sets, hconditions, horderings, made⟩ :=
    patches r hr filled (.ofTable "t") rfl (by simp [Query.Erroneous, Query.ofTable])
      (by simp [Query.Unsatisfiable, Query.ofTable])
      (by simp [Query.Unfit, Query.BadOrder, Query.ofTable])
  obtain rfl : conditions = [] := Option.some.inj (Except.ok.inj hconditions.symm)
  obtain rfl : orderings = [] := Except.ok.inj horderings.symm
  exact ⟨assignments, sets, made⟩

end RowStore
