import RowStore.Proofs.Query.Outcome
import RowStore.Proofs.Record
import RowStore.Proofs.Store.Operation

/-!
# The rows that a statement names

A statement on rows with given ids names these and no others. A change of a row names it by its id,
which it leaves as it is. Names are told apart as they are written.
-/

namespace RowStore

open Sql (Token words pathTokens listTokens)

variable {σ α β : Type}

/-! ## Rows with given ids -/

/-- A WHERE clause for the rows with these ids. -/
def idTokens (ids : List String) : List Token :=
  words ["WHERE"] ++ .name "id" :: words ["IN"] ++ listTokens (ids.map fun id => [.string id])

theorem not_badField_id : ¬ BadField "id" := by
  unfold BadField
  decide

theorem not_badField_v : ¬ BadField "v" := by
  unfold BadField
  decide

namespace Query

section

variable {q : Query} {use : Use} {ids : List String}
variable (hfilters : q.filters = [⟨"id", .eq, .list (ids.map .text)⟩])
include hfilters

theorem not_erroneous_ids : ¬ q.Erroneous := by
  simp [Erroneous, Filter.Erroneous, hfilters, not_badField_id]

theorem unsatisfiable_ids : q.Unsatisfiable ↔ ids = [] := by
  simp [Unsatisfiable, not_erroneous_ids hfilters, hfilters]

theorem predicateTokens_ids : q.predicateTokens = idTokens ids := by
  have hname : fieldToken "id" = .name "id" := rfl
  have hids : (ids.map Value.text).map Value.tokens = ids.map fun id => [Token.string id] := by
    rw [List.map_map]
    rfl
  simp [predicateTokens, hfilters, Filter.tokens, Filter.test, idTokens, hname, hids]

theorem statement_ids (hpatch : ¬ use.BadPatch) (hfit : ¬ q.Unfit use)
    (htail : q.tailTokens use = []) :
    (ids = [] ∨ Text.blankOnly q.table = true → ∀ s, q.statement use ≠ .ok (some s)) ∧
      (ids ≠ [] → Text.blankOnly q.table = false → ∃ s, q.statement use = .ok (some s) ∧
        Sql.tokenize s.text.toList = some (q.headTokens use ++ idTokens ids)) := by
  have hrejected : q.Rejected use ↔ Text.blankOnly q.table = true := by
    simp [Rejected, hpatch, not_erroneous_ids hfilters]
  constructor
  · intro hnothing s hs
    by_cases hblank : Text.blankOnly q.table = true
    · obtain ⟨cause, hrefused⟩ := statement_refused (hrejected.mpr hblank)
      cases hs.symm.trans hrefused
    · have hids := hnothing.resolve_right hblank
      have hpassed := mt hrejected.mp hblank
      have hnone := (q.becomes_statement use).nothing (by tauto)
        ((unsatisfiable_ids hfilters).mpr hids)
      cases hs.symm.trans hnone
  · intro hids htable
    have hpassed : ¬ q.Rejected use := by simp [hrejected, htable]
    have hrows : ¬ q.Unsatisfiable := mt (unsatisfiable_ids hfilters).mp hids
    obtain ⟨s, hs, htokens⟩ := statement_says hpassed hrows hfit
    refine ⟨s, hs, ?_⟩
    rw [htokens, tokens, predicateTokens_ids hfilters, htail, List.append_nil]

end

end Query

/-- Work that makes these calls in this order, whatever is answered. -/
def Makes (work : Work (Recorded σ) α) (calls : List Call) : Prop :=
  ∀ s, (work s).2.server.calls = s.server.calls ++ calls

namespace Makes

theorem of_same {work : Work (Recorded σ) α} (h : ∀ s, (work s).2.server = s.server) :
    Makes work [] := fun s => by rw [h, List.append_nil]

theorem then_same {work : Work (Recorded σ) α} {f : α → Work (Recorded σ) β} {calls : List Call}
    (hw : Makes work calls) (hf : ∀ a, Makes (f a) []) : Makes (work >>= f) calls := by
  intro s
  have hcalls := hw s
  rw [Work.bind_apply]
  generalize work s = r at hcalls
  obtain ⟨result, s'⟩ := r
  cases result with
  | error fault => exact hcalls
  | ok a => exact (hf a s').trans (by rw [List.append_nil]; exact hcalls)

theorem select (db : Store σ) (sql : String) : Makes (db.recorded.select sql) [.select sql] := by
  intro s
  obtain ⟨journal, hrun⟩ := db.recorded.select_apply sql s
  rw [hrun]
  rfl

theorem execute (db : Store σ) (sql : String) :
    Makes (db.recorded.execute sql []) [.execute sql []] := by
  intro s
  obtain ⟨journal, hrun⟩ := db.recorded.execute_apply sql [] s
  rw [hrun]
  rfl

end Makes

/-- Work on the rows with some ids. Without an id, or without a table, it asks nothing. Otherwise it
makes one call, and the statement of that names these rows and no others. -/
structure NamesIds (call : String → Call) (head : List Token) (table : String) (ids : List String)
    (work : Work (Recorded σ) α) : Prop where
  idle (h : ids = [] ∨ Text.blankOnly table = true) : Makes work []
  asks (h : ids ≠ []) (h' : Text.blankOnly table = false) :
    ∃ sql, Sql.tokenize sql.toList = some (head ++ pathTokens table ++ idTokens ids) ∧
      Makes work [call sql]

namespace NamesIds

variable {call : String → Call} {head : List Token} {table : String} {ids : List String}

theorem of_query (q : Query) (use : Query.Use) {f : Option Sql.Statement → Work (Recorded σ) α}
    (hfilters : q.filters = [⟨"id", .eq, .list (ids.map .text)⟩]) (hpatch : ¬ use.BadPatch)
    (hfit : ¬ q.Unfit use) (htail : q.tailTokens use = [])
    (hhead : q.headTokens use = head ++ pathTokens q.table) (hnone : Makes (f none) [])
    (hsome : ∀ s, Makes (f (some s)) [call s.text]) :
    NamesIds call head q.table ids (Work.ofExcept (q.statement use) >>= f) := by
  obtain ⟨hnothing, hmade⟩ := Query.statement_ids hfilters hpatch hfit htail
  constructor
  · intro h
    have hno := hnothing h
    cases hstatement : q.statement use with
    | error fault =>
      rw [Work.bind_ofExcept_error f rfl]
      exact Makes.of_same fun _ => rfl
    | ok found =>
      cases found with
      | none => rwa [Work.bind_ofExcept_ok f rfl]
      | some s => exact absurd hstatement (hno s)
  · intro h h'
    obtain ⟨s, hs, htokens⟩ := hmade h h'
    rw [Work.bind_ofExcept_ok f hs]
    exact ⟨s.text, by rw [htokens, hhead], hsome s⟩

theorem then_same {work : Work (Recorded σ) α} {f : α → Work (Recorded σ) β}
    (h : NamesIds call head table ids work) (hf : ∀ a, Makes (f a) []) :
    NamesIds call head table ids (work >>= f) := by
  refine ⟨fun hnothing => (h.idle hnothing).then_same hf, fun hids htable => ?_⟩
  obtain ⟨sql, htokens, hmakes⟩ := h.asks hids htable
  exact ⟨sql, htokens, hmakes.then_same hf⟩

theorem of_guard {work : Work (Recorded σ) α} {a : α} (h : NamesIds call head table ids work) :
    NamesIds call head table ids (if ids.isEmpty then pure a else work) := by
  cases ids with
  | nil => exact ⟨fun _ => Makes.of_same fun _ => rfl, fun hne => absurd rfl hne⟩
  | cons id ids => exact h

end NamesIds

section

variable (db : Store σ) (table : String) (ids : List String)

theorem namesIds_recordsWithIds :
    NamesIds .select (words ["SELECT"] ++ [.mark '*'] ++ words ["FROM"]) table ids
      (db.recorded.recordsWithIds table ids) := by
  have hfit : ¬ (Query.ofIds table ids).Unfit .select := by
    simp [Query.Unfit, Query.BadOrder, Query.ofIds, Query.filterIn, Query.filter, Query.ofTable]
  refine NamesIds.of_guard (NamesIds.of_query (.ofIds table ids) .select rfl id hfit rfl rfl
    (Makes.of_same fun _ => rfl) fun s => ?_)
  exact (Makes.select db s.text).then_same fun _ => Makes.of_same fun _ => rfl

theorem namesIds_entries :
    NamesIds .select (words ["SELECT"] ++ [.name "id", .mark ',', .name "v"] ++ words ["FROM"])
      table ids ((KeyStore.mk db.recorded).entries table ids) := by
  have hfit : ¬ ((Query.ofIds table ids).select ["id", "v"]).Unfit .select := by
    simp [Query.Unfit, Query.BadOrder, Query.ofIds, Query.filterIn, Query.filter, Query.ofTable,
      Query.select, not_badField_id, not_badField_v]
  have hrecords : NamesIds .select _ table ids
      (db.recorded.records ((Query.ofIds table ids).select ["id", "v"])) :=
    NamesIds.of_query ((Query.ofIds table ids).select ["id", "v"]) .select rfl id hfit rfl rfl
      (Makes.of_same fun _ => rfl) fun s =>
        (Makes.select db s.text).then_same fun _ => Makes.of_same fun _ => rfl
  exact NamesIds.of_guard (hrecords.then_same fun _ => Makes.of_same fun _ => rfl)

theorem namesIds_remove :
    NamesIds (.execute · []) (words ["DELETE", "FROM"]) table ids
      (db.recorded.remove (.ofIds table ids)) := by
  have hfit : ¬ (Query.ofIds table ids).Unfit .delete := by
    simp [Query.Unfit, Query.BadOrder, Query.ofIds, Query.filterIn, Query.filter, Query.ofTable]
  refine NamesIds.of_query (.ofIds table ids) .delete rfl id hfit rfl rfl
    (Makes.of_same fun _ => rfl) fun s => ?_
  exact (Makes.execute db s.text).then_same fun _ => Makes.of_same fun _ => rfl

end

/-! ## Changed rows -/

/-- What the change of a row says: its fields, and the id of the row. -/
def changeTokens (table : String) (id : Value) (fields : Record) : List Token :=
  words ["UPDATE"] ++ pathTokens table ++ words ["SET"] ++ Query.patchTokens fields ++
    words ["WHERE"] ++ .name "id" :: .comparison .eq :: id.tokens

namespace Record

/-- The fields of a row besides its id. -/
def others (r : Record) : Record := r.erase "id"

/-- A row that says which one it is. -/
def HasId (r : Record) : Prop := ∃ id, r.get? "id" = some id ∧ id ≠ .null

/-- A row that cannot be changed: it does not say which one it is, or its fields have no place. -/
def Unchangeable (table : String) (r : Record) : Prop :=
  ¬ r.HasId ∨ r.others.names ≠ [] ∧
    (Text.blankOnly table = true ∨ ∃ name ∈ r.others.names, BadField name)

/-- What the change of a row says, if there is something to change. -/
def change (table : String) (r : Record) : Option (List Token) :=
  match r.get? "id" with
  | none => none
  | some id => if r.others.isEmpty then none else some (changeTokens table id r.others)

theorem notMem_others (r : Record) : "id" ∉ r.others.names := by
  simp [others, erase, names]

end Record

theorem ofField_eq_id {name : String} (h : ColumnName.ofField name = "id") : name = "id" := by
  have hcolumn : ColumnName.columnChars name.toList = ['i', 'd'] := by
    rw [← String.toList_inj, ColumnName.ofField, String.toList_ofList] at h
    exact h
  have hprefix : ['i', 'd'] <+: ColumnName.columnChars name.toList := by rw [hcolumn]
  obtain ⟨cs, hname, hprefix⟩ := ColumnName.prefix_columnChars_cons _ _ _ (by decide) hprefix
  obtain ⟨ds, rfl, -⟩ := ColumnName.prefix_columnChars_cons _ _ _ (by decide) hprefix
  rw [hname, ColumnName.columnChars_cons _ _ (by decide),
    ColumnName.columnChars_cons _ _ (by decide)] at hcolumn
  obtain rfl : ds = [] := (ColumnName.columnChars_eq_nil ds).mp (by simpa using hcolumn)
  exact String.toList_inj.mp hname

namespace Query

def ofId (table : String) (id : Value) : Query := (ofTable table).filterEq "id" (.value id)

variable {table : String} {id : Value} {fields : Record}

theorem not_erroneous_ofId : ¬ (ofId table id).Erroneous := by
  simp [Erroneous, Filter.Erroneous, ofId, filterEq, filter, ofTable, not_badField_id]

theorem not_unsatisfiable_ofId : ¬ (ofId table id).Unsatisfiable := by
  simp [Unsatisfiable, ofId, filterEq, filter, ofTable]

theorem not_unfit_ofId : ¬ (ofId table id).Unfit (.update fields) := by
  simp [Unfit, BadOrder, ofId, filterEq, filter, ofTable]

theorem rejected_ofId : (ofId table id).Rejected (.update fields) ↔
    Text.blankOnly table = true ∨ fields.names = [] ∨ ∃ name ∈ fields.names, BadField name := by
  have htable : (ofId table id).table = table := rfl
  simp only [Rejected, Use.BadPatch, not_erroneous_ofId, htable, or_false]

theorem tokens_ofId (hid : id ≠ .null) :
    (ofId table id).tokens (.update fields) = changeTokens table id fields := by
  have hname : fieldToken "id" = .name "id" := rfl
  have htest : (Filter.mk "id" .eq (.value id)).test = .comparison .eq :: id.tokens := by
    cases id with
    | null => exact absurd rfl hid
    | _ => rfl
  have hfilters : (ofId table id).predicateTokens =
      words ["WHERE"] ++ .name "id" :: .comparison .eq :: id.tokens := by
    simp [predicateTokens, ofId, filterEq, filter, ofTable, Filter.tokens, hname, htest]
  rw [tokens, hfilters, changeTokens]
  simp [headTokens, tailTokens, orderTokens, limitTokens, ofId, filterEq, filter, ofTable]

end Query

namespace Store

variable {table : String} {r : Record}

theorem updateStatement_unknown (h : ¬ r.HasId) :
    updateStatement table r = .error (.invalid .missingId) := by
  unfold updateStatement
  split
  case h_1 | h_2 => rfl
  case h_3 id hnull hid => exact absurd ⟨id, hid, hnull⟩ h

theorem updateStatement_eq {id : Value} (hid : r.get? "id" = some id) (hnull : id ≠ .null) :
    updateStatement table r =
      if r.others.isEmpty then .ok none
      else (Query.ofId table id).statement (.update r.others) >>= fun found =>
        .ok (found.map Sql.Statement.text) := by
  unfold updateStatement
  split
  case h_1 hnone => cases hid.symm.trans hnone
  case h_2 hnone =>
    obtain rfl := Option.some.inj (hid.symm.trans hnone)
    exact absurd rfl hnull
  case h_3 id' _ hid' =>
    obtain rfl := Option.some.inj (hid.symm.trans hid')
    rfl

theorem others_isEmpty : r.others.isEmpty = true ↔ r.others.names = [] := by
  rw [Record.isEmpty, List.isEmpty_iff, Record.names, List.map_eq_nil_iff]

theorem updateStatement_becomes (table : String) (r : Record) :
    (r.Unchangeable table → ∃ cause, updateStatement table r = .error (.invalid cause)) ∧
      (¬ r.Unchangeable table → ∃ found, updateStatement table r = .ok found ∧
        found.map (fun sql => Sql.tokenize sql.toList) = (r.change table).map some) := by
  by_cases hknown : r.HasId
  case neg =>
    exact ⟨fun _ => ⟨_, updateStatement_unknown hknown⟩, fun h => absurd (Or.inl hknown) h⟩
  unfold Record.Unchangeable
  rw [not_iff_false_intro hknown, false_or]
  obtain ⟨id, hid, hnull⟩ := hknown
  rw [updateStatement_eq hid hnull, Record.change, hid]
  by_cases hothers : r.others.names = []
  · have hempty := others_isEmpty.mpr hothers
    exact ⟨fun h => absurd hothers h.1, fun _ => ⟨none, if_pos hempty, by simp [hempty]⟩⟩
  have hsome : ¬ r.others.isEmpty = true := mt others_isEmpty.mp hothers
  have hrejected : (Query.ofId table id).Rejected (.update r.others) ↔ _ := Query.rejected_ofId
  rw [or_iff_right hothers] at hrejected
  rw [if_neg hsome, and_iff_right hothers, ← hrejected]
  constructor
  · intro hbad
    obtain ⟨cause, hrefused⟩ := Query.statement_refused hbad
    exact ⟨cause, by rw [hrefused]; rfl⟩
  · intro hpassed
    obtain ⟨s, hs, htokens⟩ := Query.statement_says hpassed Query.not_unsatisfiable_ofId
      Query.not_unfit_ofId
    refine ⟨some s.text, by rw [hs]; rfl, ?_⟩
    rw [Query.tokens_ofId hnull] at htokens
    simp [hsome, htokens]

theorem refuses_updateStatements (table : String) (rows : List Record) :
    Refuses (∃ r ∈ rows, r.Unchangeable table) (updateStatements table rows) := by
  have hone (r : Record) : Refuses (r.Unchangeable table) (updateStatement table r) := by
    obtain ⟨hrefused, hmade⟩ := updateStatement_becomes table r
    refine ⟨hrefused, fun h => ?_⟩
    obtain ⟨found, hfound, -⟩ := hmade h
    exact ⟨found, hfound⟩
  exact (Refuses.mapM hone rows).then_pure _

theorem tokenize_updateStatement {found : Option String} (h : updateStatement table r = .ok found) :
    found.map (fun sql => Sql.tokenize sql.toList) = (r.change table).map some := by
  by_cases hbad : r.Unchangeable table
  · obtain ⟨cause, hrefused⟩ := (updateStatement_becomes table r).1 hbad
    cases h.symm.trans hrefused
  · obtain ⟨found', hfound', htokens⟩ := (updateStatement_becomes table r).2 hbad
    obtain rfl := Except.ok.inj (h.symm.trans hfound')
    exact htokens

theorem tokenize_updateStatements {rows : List Record} {statements : List String}
    (h : updateStatements table rows = .ok statements) :
    statements.map (fun sql => Sql.tokenize sql.toList) =
      (rows.filterMap (Record.change table)).map some := by
  obtain ⟨found, hfound, hstatements⟩ := Checks.bind_eq_ok.mp h
  obtain rfl := Checks.pure_eq_ok.mp hstatements
  have hall : found.map (Option.map fun sql => Sql.tokenize sql.toList) =
      rows.map fun r => (r.change table).map some :=
    (Checks.map_eq_map_of_forall₂ ((Checks.mapM_eq_ok.mp hfound).imp fun r found hr =>
      (tokenize_updateStatement hr).symm)).symm
  calc (found.filterMap id).map (fun sql => Sql.tokenize sql.toList)
      = (found.map (Option.map fun sql => Sql.tokenize sql.toList)).filterMap id := by
        rw [List.map_filterMap, List.filterMap_map]
        rfl
    _ = (rows.map fun r => (r.change table).map some).filterMap id := by rw [hall]
    _ = (rows.filterMap (Record.change table)).map some := by
        rw [List.map_filterMap, List.filterMap_map]
        rfl

end Store

/-! ## Changed rows with structured values -/

namespace Record

variable (table : String) (r : Record)

theorem others_stringify : r.stringify.others = r.others.stringify := by
  simp [others, erase, stringify, mapValues, List.filter_map, Function.comp_def]

theorem patchTokens_stringify : Query.patchTokens r.stringify = Query.patchTokens r := by
  simp [Query.patchTokens, stringify, mapValues, Value.tokens, Value.literal_stringify,
    Function.comp_def]

theorem hasId_stringify : r.stringify.HasId ↔ r.HasId := by
  have hnull (v : Value) : v.stringify = .null ↔ v = .null := by
    cases v with
    | json j => cases j <;> simp [Value.stringify, Json.isStructured]
    | _ => simp [Value.stringify]
  simp [HasId, get?_stringify, hnull]

theorem unchangeable_stringify : r.stringify.Unchangeable table ↔ r.Unchangeable table := by
  simp only [Unchangeable, hasId_stringify, others_stringify, names_stringify]

theorem change_stringify : r.stringify.change table = r.change table := by
  have hempty : r.others.stringify.isEmpty = r.others.isEmpty := by
    simp [isEmpty, stringify, mapValues]
  have htokens (id : Value) : id.stringify.tokens = id.tokens := by
    rw [Value.tokens, Value.literal_stringify, Value.tokens]
  unfold change
  rw [get?_stringify, others_stringify, hempty]
  cases r.get? "id" with
  | none => rfl
  | some id => simp [changeTokens, patchTokens_stringify, htokens]

end Record

/-! ## Scope -/

namespace Store

variable (db : Store σ) (table : String) (rows : List Record) (s : Session (Recorded σ))

theorem save_update_refused (h : ∃ r ∈ rows, r.Unchangeable table) :
    ∃ cause, db.recorded.save table rows .update s = (.error (.invalid cause), s) := by
  obtain ⟨r, hr, hbad⟩ := h
  have hbad' : ∃ r ∈ rows.map Record.stringify, r.Unchangeable table :=
    ⟨r.stringify, List.mem_map_of_mem hr, (r.unchangeable_stringify table).mpr hbad⟩
  obtain ⟨cause, hrefused⟩ := (refuses_updateStatements table _).refused hbad'
  have hprepare : (Operation.save table rows .update : Operation (Recorded σ) UInt64).prepare
      db.settings.limits = .error (.invalid cause) := by
    rw [Operation.prepare, if_neg (by simp [List.ne_nil_of_mem hr]), saveStatements, hrefused]
    rfl
  exact ⟨cause, (db.settled_save table rows .update).refused _ hprepare s⟩

theorem save_update_accepted (h : ∀ r ∈ rows, ¬ r.Unchangeable table) :
    ∃ statements : List String,
      statements.map (fun sql => Sql.tokenize sql.toList) =
        (rows.filterMap (Record.change table)).map some ∧
      UpToFailure db.executor (statements.map fun sql => (sql, []))
        (fun outcomes affected => affectedRows outcomes < UInt64.size →
          affected.toNat = affectedRows outcomes) (db.recorded.save table rows .update) := by
  have hgood : ¬ ∃ r ∈ rows.map Record.stringify, r.Unchangeable table := by
    simpa [Record.unchangeable_stringify] using h
  obtain ⟨statements, hmade⟩ := (refuses_updateStatements table _).passed hgood
  have htokens := tokenize_updateStatements hmade
  rw [List.filterMap_map] at htokens
  have hsave : saveStatements db.settings.limits table (rows.map Record.stringify) .update =
      .ok (statements, []) := by
    rw [saveStatements, hmade]
    rfl
  refine ⟨statements, ?_, db.upToFailure_save hsave⟩
  rw [htokens]
  congr 2
  funext r
  exact r.change_stringify table

theorem save_update_not_refused (h : ∀ r ∈ rows, ¬ r.Unchangeable table) (fault : Fault) :
    db.recorded.save table rows .update s ≠ (.error fault, s) := by
  obtain ⟨statements, -, hruns⟩ := db.save_update_accepted table rows h
  intro hrefused
  -- Either all statements are done, or one that failed was called and stands in the record.
  rcases answers_cases (db.executor.answers (statements.map fun sql => (sql, []))
    s.server.server) with ⟨outcomes, hgood⟩ | ⟨outcomes, fault, unread, hbad⟩
  · obtain ⟨-, affected, hok, -⟩ := hruns.complete s outcomes hgood
    rw [hrefused] at hok
    cases hok
  · obtain ⟨hcalls, -⟩ := hruns.stopped s outcomes fault unread hbad
    rw [hrefused, List.self_eq_append_right, List.map_eq_nil_iff] at hcalls
    cases statements with
    | nil => simp [Executor.answers] at hbad
    | cons sql statements => simp at hcalls

end Store

/-- Statements for given ids reach the rows with these ids and no others, and there is none without
an id. A batch of changes is refused as a whole, or each row with something to change is changed by
a statement of its own, in order, that sets its other fields where the id is its own. -/
theorem statements_stay_scoped (db : Store σ) (table : String) (ids : List String)
    (rows : List Record) (s : Session (Recorded σ)) :
    NamesIds .select (words ["SELECT"] ++ [.mark '*'] ++ words ["FROM"]) table ids
      (db.recorded.recordsWithIds table ids) ∧
    NamesIds .select (words ["SELECT"] ++ [.name "id", .mark ',', .name "v"] ++ words ["FROM"])
      table ids ((KeyStore.mk db.recorded).entries table ids) ∧
    NamesIds (.execute · []) (words ["DELETE", "FROM"]) table ids
      (db.recorded.removeIds table ids) ∧
    NamesIds (.execute · []) (words ["DELETE", "FROM"]) table ids
      ((KeyStore.mk db.recorded).remove table ids) ∧
    ((∃ r ∈ rows, r.Unchangeable table) ↔
      ∃ cause, db.recorded.save table rows .update s = (.error (.invalid cause), s)) ∧
    ((∀ r ∈ rows, ¬ r.Unchangeable table) → ∃ statements : List String,
      statements.map (fun sql => Sql.tokenize sql.toList) =
        (rows.filterMap (Record.change table)).map some ∧
      UpToFailure db.executor (statements.map fun sql => (sql, []))
        (fun outcomes affected => affectedRows outcomes < UInt64.size →
          affected.toNat = affectedRows outcomes) (db.recorded.save table rows .update)) ∧
    ∀ r : Record, ∀ name ∈ r.others.names, ColumnName.ofField name ≠ "id" := by
  refine ⟨namesIds_recordsWithIds db table ids, namesIds_entries db table ids,
    (namesIds_remove db table ids).of_guard, namesIds_remove db table ids, ?_,
    db.save_update_accepted table rows, ?_⟩
  · refine ⟨db.save_update_refused table rows s, ?_⟩
    rintro ⟨cause, hrefused⟩
    by_contra hgood
    exact db.save_update_not_refused table rows s (by simpa using hgood) _ hrefused
  · intro r name hname hid
    obtain rfl := ofField_eq_id hid
    exact r.notMem_others hname

/-- Two ids that could be taken for SQL, and a batch of a row that changes, one that does not, and
one with a structured value. -/
theorem statements_stay_scoped_hostile :
    let db : Store Nat := ⟨.losing 9, .standard⟩
    let rows : List Record := [.ofList [("a.b", .int 7), ("id", .text "' OR 1=1")],
      .ofList [("id", .int 2)], .ofList [("id", .int 3), ("j", .json (.array []))]]
    let start : Session (Recorded Nat) := ⟨⟨0, []⟩, []⟩
    (∃ sql, Sql.tokenize sql.toList = some [.word "DELETE", .word "FROM", .name "t", .word "WHERE",
        .name "id", .word "IN", .mark '(', .string "a' OR '", .mark ',', .string "b", .mark ')'] ∧
      (db.recorded.removeIds "t" ["a' OR '", "b"] start).2.server.calls = [.execute sql []]) ∧
    (∃ statements : List String, statements.map (fun sql => Sql.tokenize sql.toList) =
        [some [.word "UPDATE", .name "t", .word "SET", .name "a_dot_b", .comparison .eq,
            .number "7", .word "WHERE", .name "id", .comparison .eq, .string "' OR 1=1"],
          some [.word "UPDATE", .name "t", .word "SET", .name "j", .comparison .eq, .string "[]",
            .word "WHERE", .name "id", .comparison .eq, .number "3"]] ∧
      (db.recorded.save "t" rows .update start).2.server.calls =
        statements.map fun sql => .execute sql []) ∧
    ∃ cause, db.recorded.save "t" (rows ++ [.empty]) .update start =
      (.error (.invalid cause), start) := by
  intro db rows start
  obtain ⟨-, -, hremove, -, -, haccepted, -⟩ :=
    statements_stay_scoped db "t" ["a' OR '", "b"] rows start
  obtain ⟨-, -, -, -, hrefused, -, -⟩ :=
    statements_stay_scoped db "t" [] (rows ++ [.empty]) start
  refine ⟨?_, ?_, ?_⟩
  · obtain ⟨sql, htokens, hmakes⟩ := hremove.asks (by simp) rfl
    exact ⟨sql, htokens, hmakes start⟩
  · have hbad : ¬ BadField "a.b" ∧ ¬ BadField "j" := by
      unfold BadField
      decide
    have hrow (r : Record) (id : Value) (hid : r.get? "id" = some id) (hnull : id ≠ .null)
        (hnames : ∀ name ∈ r.others.names, name = "a.b" ∨ name = "j") :
        ¬ r.Unchangeable "t" := by
      rintro (hunknown | ⟨-, hblank | ⟨name, hname, hbadName⟩⟩)
      · exact hunknown ⟨id, hid, hnull⟩
      · exact absurd hblank (by decide)
      · rcases hnames name hname with rfl | rfl
        · exact hbad.1 hbadName
        · exact hbad.2 hbadName
    have hgood : ∀ r ∈ rows, ¬ r.Unchangeable "t" := by
      simp only [rows, List.forall_mem_cons]
      exact ⟨hrow _ _ rfl nofun (by decide), hrow _ _ rfl nofun (by decide),
        hrow _ _ rfl nofun (by decide), by simp⟩
    obtain ⟨statements, htokens, hruns⟩ := haccepted hgood
    refine ⟨statements, htokens, ?_⟩
    have htwo : statements.length = 2 := by
      rw [← List.length_map (fun sql => Sql.tokenize sql.toList), htokens]
      rfl
    obtain ⟨first, second, rfl⟩ := List.length_eq_two.mp htwo
    obtain ⟨hcalls, -⟩ := hruns.complete start [⟨2, none⟩, ⟨2, none⟩] rfl
    exact hcalls
  · refine hrefused.mp ⟨.empty, by simp, Or.inl ?_⟩
    rintro ⟨id, hid, -⟩
    cases hid

end RowStore
