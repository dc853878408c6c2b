import RowStore.Proofs.Batch.Pieces
import RowStore.Proofs.Query.Outcome
import RowStore.Proofs.Record

/-!
# Rows without structured values

Once its structured values are texts a record has the same names and the same literals, so nothing
that is written into a statement changes. A batch of such records has a plan unless the table or the
name of a field is no good, and that is found out before any statement is written.
-/

namespace RowStore

namespace Record

variable (r : Record)

theorem ext {r s : Record} (h : r.fields = s.fields) : r = s := by
  cases r
  cases s
  subst h
  rfl

theorem stringify_stringify : r.stringify.stringify = r.stringify := by
  apply ext
  simp [stringify, mapValues, Value.stringify_stringify]

theorem literal_get?_stringify (name : String) :
    (r.stringify.get? name).map Value.literal = (r.get? name).map Value.literal := by
  rw [r.get?_stringify, Option.map_map]
  congr 1
  exact funext Value.literal_stringify

theorem isEmpty_stringify : r.stringify.isEmpty = r.isEmpty := by
  simp [isEmpty, stringify, mapValues]

end Record

theorem Query.toUpdate_stringify (q : Query) (r : Record) :
    q.toUpdate r.stringify = q.toUpdate r := by
  unfold toUpdate
  rw [r.isEmpty_stringify, Record.stringify, Record.mapValues, List.mapM_map]
  simp only [Function.comp_def, Value.literal_stringify]

namespace Batch

/-! ## Checks of the names -/

def checkName (name : String) : Except Fault Unit := (fun _ => ()) <$> ColumnName.ofField? name

theorem checkName_eq_ok_iff (name : String) : checkName name = .ok () ↔ ¬ BadField name := by
  constructor
  · rintro h hbad
    obtain ⟨column, hcolumn, -⟩ := Checks.map_eq_ok.mp h
    obtain ⟨cause, hrefused⟩ := (refuses_ofField? name).refused hbad
    cases hcolumn.symm.trans hrefused
  · intro hgood
    obtain ⟨column, hcolumn⟩ := (refuses_ofField? name).passed hgood
    exact Checks.map_eq_ok.mpr ⟨column, hcolumn, rfl⟩

theorem checkName_eq_error_iff (name : String) (fault : Fault) :
    checkName name = .error fault ↔ ColumnName.ofField? name = .error fault := by
  unfold checkName
  cases ColumnName.ofField? name <;> simp

theorem checkRow_stringify (r : Record) : checkRow r.stringify = r.names.forM checkName := by
  unfold checkRow Record.stringify Record.mapValues Record.names
  rw [List.forM_eq_forM, List.forM_eq_forM, List.forM_map, List.forM_map]
  congr 1
  funext f
  dsimp only
  rw [f.2.isStructured_stringify]
  unfold checkName
  cases ColumnName.ofField? f.1 <;> rfl

theorem checkRows_stringify (rows : List Record) :
    (rows.map Record.stringify).forM checkRow = (rows.flatMap Record.names).forM checkName := by
  induction rows with
  | nil => rfl
  | cons r rows ih =>
    rw [List.forM_eq_forM] at ih ⊢
    rw [List.map_cons, List.flatMap_cons, List.forM_cons, ih, checkRow_stringify]
    exact List.forM_append.symm

/-- The fault of the first name that is no good. -/
def FirstFault (names : List String) (fault : Fault) : Prop :=
  ∃ before name after, names = before ++ name :: after ∧ (∀ other ∈ before, ¬ BadField other) ∧
    ColumnName.ofField? name = .error fault

theorem checkRows_eq_error_iff (rows : List Record) (fault : Fault) :
    (rows.map Record.stringify).forM checkRow = .error fault ↔
      FirstFault (rows.flatMap Record.names) fault := by
  rw [checkRows_stringify, Checks.forM_eq_error]
  simp only [FirstFault, checkName_eq_ok_iff, checkName_eq_error_iff]

theorem exists_firstFault_iff (rows : List Record) :
    (∃ fault, FirstFault (rows.flatMap Record.names) fault) ↔
      ∃ s ∈ rows, ∃ name ∈ s.names, BadField name := by
  have hnames : (rows.flatMap Record.names).forM checkName = .ok () ↔ _ := Checks.forM_eq_ok
  simp only [checkName_eq_ok_iff, List.mem_flatMap] at hnames
  simp only [← checkRows_eq_error_iff, checkRows_stringify]
  cases h : (rows.flatMap Record.names).forM checkName with
  | error fault =>
    refine iff_of_true ⟨fault, rfl⟩ ?_
    by_contra hgood
    refine nomatch h.symm.trans (hnames.mpr ?_)
    rintro name ⟨s, hs, hname⟩ hbad
    exact hgood ⟨s, hs, name, hname, hbad⟩
  | ok u =>
    refine iff_of_false nofun ?_
    rintro ⟨s, hs, name, hname, hbad⟩
    exact hnames.mp h name ⟨s, hs, hname⟩ hbad

/-! ## Plans -/

section

variable {limits : Limits} {verb : Verb} {table : String} {rows : List Record} {fault : Fault}

theorem plan_blank (hne : rows ≠ []) (h : Text.blankOnly table = true) :
    plan limits verb table rows = .error (.invalid .blankInsertTable) := by
  unfold plan
  rw [if_neg (by simpa using hne)]
  dsimp only
  rw [if_pos h]
  rfl

theorem plan_unchecked (hne : rows ≠ []) (h : Text.blankOnly table = false)
    (hrows : rows.forM checkRow = .error fault) :
    plan limits verb table rows = .error fault := by
  unfold plan
  rw [if_neg (by simpa using hne)]
  dsimp only
  rw [if_neg (by simp [h]), hrows]
  rfl

theorem plan_eq_error_iff :
    plan limits verb table rows = .error fault ↔ rows ≠ [] ∧
      (Text.blankOnly table = true ∧ fault = .invalid .blankInsertTable ∨
        Text.blankOnly table = false ∧ rows.forM checkRow = .error fault) := by
  rcases eq_or_ne rows [] with rfl | hne
  · simp [plan_nil]
  · rw [and_iff_right hne]
    cases hblank : Text.blankOnly table with
    | true => simp [plan_blank hne hblank, eq_comm]
    | false =>
      cases hrows : rows.forM checkRow with
      | error fault' => simp [plan_unchecked hne hblank hrows]
      | ok u =>
        obtain ⟨entries, hplan⟩ : ∃ entries, plan limits verb table rows = .ok ⟨_, entries⟩ :=
          plan_eq hne ⟨hblank, Checks.forM_eq_ok.mp hrows⟩
        simp [hplan]

end

/-- Making texts of the structured values changes neither the names of a record nor any literal, so
an update is the same with it as without. A batch has then no plan exactly if the table is blank or
a name is no good, for the fault of the table or else of the first such name, and without such a
name each choice of rows has a header. -/
theorem plan_stringify (r : Record) (limits : Limits) (verb : Verb) (table : String)
    (rows : List Record) :
    (r.stringify.names = r.names ∧ r.stringify.stringify = r.stringify ∧
      (∀ name, (r.stringify.get? name).map Value.literal = (r.get? name).map Value.literal) ∧
      ∀ q : Query, q.toUpdate r.stringify = q.toUpdate r) ∧
    ((∃ fault, plan limits verb table (rows.map Record.stringify) = .error fault) ↔
      rows ≠ [] ∧ (Text.blankOnly table = true ∨ ∃ s ∈ rows, ∃ name ∈ s.names, BadField name)) ∧
    (∀ fault, plan limits verb table (rows.map Record.stringify) = .error fault →
      if Text.blankOnly table then fault = .invalid .blankInsertTable
      else FirstFault (rows.flatMap Record.names) fault) ∧
    ((∀ s ∈ rows, ∀ name ∈ s.names, ¬ BadField name) → ∀ chunk : List Record,
      ∃ text, header verb table
        (fieldsWithin (fieldUnion (rows.map Record.stringify)) chunk) = .ok text) := by
  have hcheck (fault : Fault) := checkRows_eq_error_iff rows fault
  have hempty : rows.map Record.stringify = [] ↔ rows = [] := List.map_eq_nil_iff
  refine ⟨⟨r.names_stringify, r.stringify_stringify, r.literal_get?_stringify,
    fun q => q.toUpdate_stringify r⟩, ?_, ?_, ?_⟩
  · simp only [plan_eq_error_iff, ne_eq, hempty, hcheck, exists_and_left]
    refine and_congr_right fun hne => ?_
    cases Text.blankOnly table with
    | true => simp
    | false => simpa using exists_firstFault_iff rows
  · intro fault h
    obtain ⟨-, ⟨hblank, rfl⟩ | ⟨hblank, hrows⟩⟩ := plan_eq_error_iff.mp h
    · rw [if_pos hblank]
    · rw [if_neg (by simp [hblank])]
      exact (hcheck fault).mp hrows
  · intro hgood chunk
    refine ⟨_, header_eq_ok fun name hname => ?_⟩
    obtain ⟨s, hs, hmem⟩ := mem_fieldUnion.mp ((fieldsWithin_sublist _ chunk).subset hname)
    obtain ⟨t, ht, rfl⟩ := List.mem_map.mp hs
    rw [t.names_stringify] at hmem
    obtain ⟨column, hcolumn⟩ := (refuses_ofField? name).passed (hgood t ht name hmem)
    obtain ⟨-, -, rfl⟩ := (ColumnName.ofField?_eq_ok_iff name column).mp hcolumn
    exact hcolumn

end Batch

end RowStore
