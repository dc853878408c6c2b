import Mathlib.Data.List.Nodup
import RowStore.Proofs.Batch.ReadBack
import RowStore.Proofs.Query.Tokens
import RowStore.Proofs.Record
import RowStore.ResultSet

/-!
# Fields in storage

What the names of fields are worth once they have been columns. A name with `_dot` before a dot is
accepted although it comes back as another one, and another name then has the same column.
-/

namespace RowStore

open ColumnName (ofField ofField? toField marker torn overlap)

/-! ## Columns -/

/-- A name that comes back without change. -/
def Kept (name : String) : Prop := ¬ torn <:+: name.toList

theorem toField_eq_iff {name column : String} (h : ofField? name = .ok column) :
    toField column = name ↔ Kept name := by
  obtain ⟨-, hmarker, rfl⟩ := (ColumnName.ofField?_eq_ok_iff name column).mp h
  rw [ColumnName.toField_ofField_iff]
  exact and_iff_right hmarker

theorem ofField_eq_iff (name other : String) :
    ofField other = ofField name ↔
      ColumnName.columnChars other.toList = ColumnName.columnChars name.toList := by
  rw [ofField, ofField, ← String.toList_inj, String.toList_ofList, String.toList_ofList]

theorem unique_iff {name column : String} (h : ofField? name = .ok column) :
    (∀ other, ofField? other = .ok column → other = name) ↔ ¬ overlap <:+: column.toList := by
  obtain ⟨hname, hmarker, rfl⟩ := (ColumnName.ofField?_eq_ok_iff name column).mp h
  have hchars := ColumnName.columnChars_unique_iff name.toList hmarker
  rw [ofField, String.toList_ofList, ← hchars]
  constructor
  · intro hone cs hcs heq
    have hcolumn : ofField name = ofField (String.ofList cs) := by
      rw [ofField_eq_iff, String.toList_ofList, heq]
    -- Only the empty name has an empty column.
    have hne : String.ofList cs ≠ "" := by
      rintro hempty
      rw [← String.toList_inj, String.toList_ofList] at hempty
      rw [hempty] at heq
      have hnil := (ColumnName.columnChars_eq_nil name.toList).mp heq.symm
      exact hname (String.toList_inj.mp hnil)
    have hother := hone (String.ofList cs) ((ColumnName.ofField?_eq_ok_iff _ _).mpr
      ⟨hne, by rwa [String.toList_ofList], hcolumn⟩)
    rw [← hother, String.toList_ofList]
  · intro hone other hother
    obtain ⟨-, hmarker', hcolumn⟩ := (ColumnName.ofField?_eq_ok_iff other _).mp hother
    rw [← String.toList_inj]
    exact hone _ hmarker' ((ofField_eq_iff name other).mp hcolumn.symm)

theorem map_back (names : List String) (hback : ∀ name ∈ names, toField (ofField name) = name) :
    (names.map fun name => toField (ofField name)) = names := by
  simpa using List.map_congr_left hback

theorem nodup_columns (names : List String) (h : names.Nodup)
    (hback : ∀ name ∈ names, toField (ofField name) = name) : (names.map ofField).Nodup := by
  have hid : (names.map ofField).map toField = names := by
    rw [List.map_map]
    exact map_back names hback
  apply List.Nodup.of_map toField
  rwa [hid]

theorem nodup_columns_of_kept (names : List String) (h : names.Nodup)
    (hnames : ∀ name ∈ names, ofField? name = .ok (ofField name) ∧ Kept name) :
    (names.map ofField).Nodup :=
  nodup_columns names h fun name hname =>
    (toField_eq_iff (hnames name hname).1).mpr (hnames name hname).2

/-! ## Rows of a result -/

theorem recordOfCells_some (columns : List String) (values : List Value) :
    ResultRow.recordOfCells columns (values.map some) =
      Record.ofList ((columns.map toField).zip values) := by
  unfold ResultRow.recordOfCells Record.ofList
  rw [List.zip_map_left, List.zip_map_right, List.foldl_map, List.foldl_map]
  rfl

theorem fields_ofCells_iff (names : List String) (h : names.Nodup) :
    (∀ values : List Value, values.length = names.length →
        (ResultRow.ofCells (names.map ofField) (values.map some)).toRecord.fields =
          names.zip values) ↔
      ∀ name ∈ names, toField (ofField name) = name := by
  have hrow : ∀ values : List Value,
      (ResultRow.ofCells (names.map ofField) (values.map some)).toRecord =
        Record.ofList ((names.map fun name => toField (ofField name)).zip values) := by
    intro values
    rw [ResultRow.toRecord, ResultRow.ofCells, recordOfCells_some, List.map_map]
    rfl
  constructor
  · intro hall
    -- Any values will do, since it is the names that are compared.
    have hfields := hall (names.map fun _ => .null) (List.length_map _)
    rw [hrow] at hfields
    have hnames := Record.names_ofList_sublist
      ((names.map fun name => toField (ofField name)).zip (names.map fun _ => .null))
    rw [Record.names, hfields, List.map_fst_zip (by simp), List.map_fst_zip (by simp)] at hnames
    have hsame := hnames.eq_of_length (by simp)
    intro name hname
    exact List.map_inj_left.mp (hsame.symm.trans (List.map_id names).symm) name hname
  · intro hback values hlength
    rw [hrow, map_back names hback, Record.fields_ofList]
    rw [List.map_fst_zip (by omega)]
    exact h

/-! ## Statements -/

theorem nodup_columns_of_plan {limits : Batch.Limits} {verb : Batch.Verb} {table : String}
    {rows : List Record} {p : Batch.Plan} (h : Batch.plan limits verb table rows = .ok p)
    (hkept : ∀ r ∈ rows, ∀ name ∈ r.names, Kept name) :
    ∀ piece ∈ p.pieces, ∃ i, Batch.readBack? piece.sql = some i ∧ i.columns.Nodup := by
  intro piece hpiece
  have hne : rows ≠ [] := by
    rintro rfl
    obtain rfl := Except.ok.inj (Batch.plan_nil.symm.trans h)
    cases hpiece
  rw [Batch.plan_pieces hne h, List.mem_map] at hpiece
  obtain ⟨chunk, hchunk, rfl⟩ := hpiece
  refine ⟨_, Batch.readBack?_pieceOf verb table rows chunk
    (Batch.ne_nil_of_mem_chunksOf limits verb table rows hne chunk hchunk), ?_⟩
  have hnames := (Batch.insertable_of_plan hne h).ofField?
  rw [Batch.insertOf, ← Batch.fieldsWithin_eq_columnsOf]
  refine nodup_columns_of_kept _ ((Batch.nodup_fieldUnion rows).sublist
    (Batch.fieldsWithin_sublist _ _)) fun name hname => ?_
  have hunion := (Batch.fieldsWithin_sublist _ _).subset hname
  obtain ⟨r, hr, hname⟩ := Batch.mem_fieldUnion.mp hunion
  exact ⟨hnames name hunion, hkept r hr name hname⟩

theorem columns_of_assignments (patch : Record) :
    (patch.fields.map fun f => (ofField f.1, f.2.literal)).map (·.1) = patch.names.map ofField := by
  rw [Record.names, List.map_map, List.map_map]
  rfl

theorem nodup_columns_of_toUpdate {q : Query} {patch : Record} {table : String}
    {assignments : List (String × Sql.Literal)} {conditions : List Sql.Condition}
    {orderings : List Sql.Ordering} {window : Sql.Window}
    (h : q.toUpdate patch =
      .ok (some (.update table assignments conditions orderings window)))
    (hkept : ∀ name ∈ patch.names, Kept name) : (assignments.map (·.1)).Nodup := by
  obtain ⟨found, _, _, hfound, -, -, heq⟩ := Query.toUpdate_eq_ok h
  obtain ⟨-, rfl, -⟩ := Sql.Statement.update.inj heq
  obtain ⟨rfl, hnames⟩ := Query.assignments_eq_ok hfound
  rw [columns_of_assignments]
  exact nodup_columns_of_kept patch.names patch.nodup fun name hname =>
    ⟨hnames name hname, hkept name hname⟩

theorem projection_eq {q : Query} {names columns : List String}
    (hselection : q.selection = some names) (hne : names ≠ [])
    (h : names.mapM ofField? = .ok columns) : q.projection = .ok (some columns) := by
  obtain ⟨name, names, rfl⟩ := List.exists_cons_of_ne_nil hne
  unfold Query.projection
  rw [hselection]
  exact Checks.map_eq_ok.mpr ⟨columns, h, rfl⟩

/-- Each of some accepted names comes back from its column exactly if it is kept, and has the
column to itself exactly if no two markers overlap there. While all of them are kept, no statement
has a column twice. A row comes back under the names that were asked for exactly if all of them are
kept. -/
theorem accepted_names (names columns : List String) (hnodup : names.Nodup)
    (h : names.mapM ofField? = .ok columns) :
    (∀ name ∈ names, (toField (ofField name) = name ↔ Kept name) ∧
      ((∀ other, ofField? other = .ok (ofField name) → other = name) ↔
        ¬ overlap <:+: (ofField name).toList)) ∧
    ((∀ name ∈ names, Kept name) →
      (∀ limits verb table rows p, Batch.fieldUnion rows = names →
        Batch.plan limits verb table rows = .ok p →
          ∀ piece ∈ p.pieces, ∃ i, Batch.readBack? piece.sql = some i ∧ i.columns.Nodup) ∧
      (∀ (q : Query) (patch : Record) table assignments conditions orderings window,
        patch.names = names →
          q.toUpdate patch = .ok (some (.update table assignments conditions orderings window)) →
            (assignments.map (·.1)).Nodup)) ∧
    (∀ q : Query, q.selection = some names → names ≠ [] → q.projection = .ok (some columns)) ∧
    ((∀ values : List Value, values.length = names.length →
        (ResultRow.ofCells columns (values.map some)).toRecord.fields = names.zip values) ↔
      ∀ name ∈ names, Kept name) := by
  obtain ⟨hcolumns, hnames⟩ := ColumnName.mapM_ofField?_eq_ok h
  refine ⟨?_, ?_, ?_, ?_⟩
  · intro name hname
    exact ⟨toField_eq_iff (hnames name hname), unique_iff (hnames name hname)⟩
  · intro hkept
    constructor
    · rintro limits verb table rows p rfl hplan
      refine nodup_columns_of_plan hplan fun r hr name hname => ?_
      exact hkept name (Batch.mem_fieldUnion.mpr ⟨r, hr, hname⟩)
    · rintro q patch table assignments conditions orderings window rfl hupdate
      exact nodup_columns_of_toUpdate hupdate hkept
  · intro q hselection hne
    exact projection_eq hselection hne h
  · subst hcolumns
    rw [fields_ofCells_iff names hnodup]
    exact forall₂_congr fun name hname => toField_eq_iff (hnames name hname)

theorem accepted_names_address :
    ["id", "address.city"].mapM ofField? = .ok ["id", "address_dot_city"] ∧
      toField (ofField "address.city") = "address.city" ∧
      ∀ id city : Value, (ResultRow.ofCells ["id", "address_dot_city"]
        [some id, some city]).toRecord.fields = [("id", id), ("address.city", city)] := by
  have hall : ∀ name ∈ ["id", "address.city"], Kept name := by
    intro name hname
    rcases List.mem_pair.mp hname with rfl | rfl <;> unfold Kept <;> decide
  obtain ⟨hback, -, -, hrow⟩ :=
    accepted_names ["id", "address.city"] ["id", "address_dot_city"] (by decide) rfl
  refine ⟨rfl, (hback "address.city" (by decide)).1.mpr (hall _ (by decide)), ?_⟩
  intro id city
  exact hrow.mpr hall [id, city] rfl

/-- A name that is accepted comes back as another one, which has the same column. A row with both
has this column twice. -/
theorem torn_name_is_lost :
    ofField? "_dot." = .ok "_dot_dot_" ∧ toField "_dot_dot_" = ".dot_" ∧
      ofField? ".dot_" = .ok "_dot_dot_" ∧
      ∃ p, Batch.plan .standard .insert "t"
          [⟨[("_dot.", .int 1), (".dot_", .int 2)], by decide⟩] = .ok p ∧
        p.statements = ["INSERT INTO `t` (`_dot_dot_`, `_dot_dot_`) VALUES (1, 2)"] :=
  ⟨rfl, rfl, rfl, _, rfl, rfl⟩

end RowStore
