import Mathlib
import RowStore.Proofs.Record
import RowStore.Proofs.Store.Saving
import RowStore.Proofs.Table.Splitting

/-!
# Batches that are saved again

An upsert that stops on the way has put the first rows of its batch. The rows that a second run
puts are the same and more, so it leaves what one run without a failure leaves.
-/

namespace RowStore

open Batch (Insertable fieldUnion)

/-! ## Structured values -/

namespace Record

theorem literalOf_stringify (r : Record) (name : String) :
    r.stringify.literalOf name = r.literalOf name := by
  rw [literalOf, r.get?_stringify, literalOf]
  cases r.get? name with
  | none => rfl
  | some v => exact v.literal_stringify

theorem ofRecord_stringify (r : Record) : Listing.ofRecord r.stringify = Listing.ofRecord r := by
  unfold Listing.ofRecord stringify mapValues
  rw [List.map_map]
  refine List.map_congr_left fun field _ => ?_
  exact Prod.ext rfl field.2.literal_stringify

end Record

variable {κ σ : Type} {l : Layout κ} {table : String} {rows : List Record}

theorem Layout.Takes.stringify (takes : l.Takes table rows) :
    l.Takes table (rows.map Record.stringify) := by
  have fields : fieldUnion (rows.map Record.stringify) = fieldUnion rows := by
    simp [Batch.fieldUnion_eq, List.flatMap_map, Record.names_stringify]
  constructor
  · exact takes.named
  · rw [fields]
    exact takes.known
  · rw [fields]
    exact takes.apart
  · rw [List.forall_mem_map]
    exact fun r hr => r.literalOf_stringify "id" ▸ takes.identified r hr

/-! ## Runs that end well -/

/-- From this state on no statement fails. -/
def Executor.Reliable (e : Executor σ) (server : σ) : Prop :=
  ∀ calls, ∃ outcomes : List Outcome, e.answers calls server = outcomes.map .ok

theorem Store.save_completes (db : Store σ)
    (planned : Insertable table (rows.map Record.stringify)) (s : Session σ)
    (reliable : db.executor.Reliable s.server) :
    ∃ n, (db.save table rows .upsert s).1 = .ok n := by
  obtain ⟨p, hp⟩ := (Table.exists_plan_iff db.settings.limits .replace table _).mpr (.inr planned)
  have made : saveStatements db.settings.limits table (rows.map Record.stringify) .upsert =
      .ok (p.statements, p.entries) := by rw [saveStatements, hp]; rfl
  obtain ⟨journal, saved⟩ := db.save_apply made s
  obtain ⟨outcomes, answers⟩ := reliable (p.statements.map fun sql => (sql, []))
  obtain ⟨journal', run⟩ := db.runBatch_ok p.statements.length
    (fun n => Work.note (stoppedEntry n p.statements.length)) (fun n o => n + o.affected) _ 0 0
    outcomes ⟨s.server, journal⟩ answers
  exact ⟨_, by rw [saved, executeFrom_eq, run]⟩

/-! ## Executors with a table -/

variable [DecidableEq κ]

/-- An executor that has a table somewhere in its state. A statement that fails was carried out or
it was not, and its answer does not tell. -/
structure Serves (e : Executor σ) (view : σ → Table l) : Prop where
  done {sql : String} {server server' : σ} {outcome : Outcome} {t : Table l}
    (h : (view server).execute sql = some t)
    (answer : e.execute sql [] server = (.ok outcome, server')) : view server' = t
  failed {sql : String} {server server' : σ} {fault : Fault} {t : Table l}
    (h : (view server).execute sql = some t)
    (answer : e.execute sql [] server = (.error fault, server')) :
    view server' = view server ∨ view server' = t

namespace Serves

variable {e : Executor σ} {view : σ → Table l}

theorem after_ok (serves : Serves e view) {statements : List String} {server : σ} {t : Table l}
    (h : (view server).executeAll statements = some t) {outcomes : List Outcome}
    (answers : e.answers (statements.map fun sql => (sql, [])) server = outcomes.map .ok) :
    view (e.after (statements.map fun sql => (sql, [])) server) = t := by
  induction statements generalizing server outcomes with
  | nil => exact Option.some.inj h
  | cons sql rest ih =>
    obtain ⟨t₁, executed, h⟩ := Table.executeAll_cons.mp h
    cases outcomes with
    | nil => simp [Executor.answers] at answers
    | cons outcome outcomes =>
      obtain ⟨first, answers⟩ := List.cons.inj answers
      have stored : view (e.execute sql [] server).2 = t₁ :=
        serves.done executed (Prod.ext first rfl)
      exact ih (stored ▸ h) answers

theorem after_error (serves : Serves e view) {statements : List String} {server : σ} {t : Table l}
    (h : (view server).executeAll statements = some t) {outcomes : List Outcome} {fault : Fault}
    {unread : List (Except Fault Outcome)}
    (answers : e.answers (statements.map fun sql => (sql, [])) server =
      outcomes.map .ok ++ .error fault :: unread) :
    ∃ n, (view server).executeAll (statements.take n) = some (view
      (e.after ((statements.map fun sql => (sql, [])).take (outcomes.length + 1)) server)) := by
  induction statements generalizing server outcomes with
  | nil => simp [Executor.answers] at answers
  | cons sql rest ih =>
    obtain ⟨t₁, executed, h⟩ := Table.executeAll_cons.mp h
    cases outcomes with
    | nil =>
      obtain ⟨first, -⟩ := List.cons.inj answers
      obtain kept | stored := serves.failed executed (Prod.ext first rfl)
      · exact ⟨0, congrArg some kept.symm⟩
      · exact ⟨1, Table.executeAll_cons.mpr ⟨t₁, executed, congrArg some stored.symm⟩⟩
    | cons outcome outcomes =>
      obtain ⟨first, answers⟩ := List.cons.inj answers
      have stored : view (e.execute sql [] server).2 = t₁ :=
        serves.done executed (Prod.ext first rfl)
      obtain ⟨n, carried⟩ := ih (stored ▸ h) answers
      exact ⟨n + 1, Table.executeAll_cons.mpr ⟨t₁, executed, stored ▸ carried⟩⟩

end Serves

/-! ## Saving -/

theorem listings_stringify (rows : List Record) :
    (rows.map Record.stringify).map Listing.ofRecord = rows.map Listing.ofRecord := by
  rw [List.map_map]
  exact List.map_congr_left fun r _ => r.ofRecord_stringify

namespace Store

variable {view : σ → Table l}

/-- Whether it ends well or not, an upsert puts rows of its batch from the first one on, and all of
them if it ends well. -/
theorem save_upsert (db : Store σ) (serves : Serves db.executor view) (takes : l.Takes table rows)
    (s : Session σ) :
    ∃ done, done <+: rows ∧
      (view s.server).putAll .replace (done.map Listing.ofRecord) =
        some (view (db.save table rows .upsert s).2.server) ∧
      ∀ n, (db.save table rows .upsert s).1 = .ok n → done = rows := by
  cases planned : saveStatements db.settings.limits table (rows.map Record.stringify) .upsert with
  | error fault =>
    have refused : db.save table rows .upsert s = (.error fault, s) := by
      cases rows with
      | nil => cases planned
      | cons r rest =>
        unfold save
        rw [if_neg (by simp), Work.bind_ofExcept_error _ planned]
        rfl
    rw [refused]
    exact ⟨[], List.nil_prefix, rfl, fun n h => by cases h⟩
  | ok made =>
    obtain ⟨statements, entries⟩ := made
    obtain ⟨p, hp, made⟩ := Checks.map_eq_ok.mp planned
    obtain ⟨rfl, -⟩ := Prod.mk.inj made
    obtain ⟨journal, saved⟩ := db.save_apply planned s
    obtain ⟨t, put⟩ :=
      Table.exists_putAll_ofRecord (view s.server) .replace takes fun h => by cases h
    have executed : (view s.server).executeAll p.statements = some t := by
      rw [Table.executeAll_plan takes.stringify hp, listings_stringify, put]
    rw [saved, executeFrom_eq]
    obtain ⟨outcomes, answers⟩ | ⟨outcomes, fault, unread, answers⟩ :=
      answers_cases (db.executor.answers (p.statements.map fun sql => (sql, [])) s.server)
    · obtain ⟨journal', run⟩ := db.runBatch_ok p.statements.length _
        (fun n o => n + o.affected) _ 0 0 outcomes ⟨s.server, journal⟩ answers
      rw [run]
      exact ⟨rows, List.prefix_refl rows, by rw [put, serves.after_ok executed answers],
        fun _ _ => rfl⟩
    · obtain ⟨journal', run⟩ := db.runBatch_error p.statements.length
        (fun n => Work.note (stoppedEntry n p.statements.length)) (fun n o => n + o.affected)
        (fun n s => ⟨_, Work.note_apply _ s⟩) _ 0 0 outcomes fault unread ⟨s.server, journal⟩
        answers
      -- What ran are the first statements, and these have the first rows.
      obtain ⟨n, carried⟩ := serves.after_error executed answers
      obtain ⟨part, first, taken⟩ := Table.executeAll_take takes.stringify hp n
      rw [List.prefix_iff_eq_take, ← List.map_take] at first
      rw [run]
      refine ⟨rows.take part.length, List.take_prefix _ rows, ?_, fun n h => by cases h⟩
      rw [← carried, taken]
      conv_rhs => rw [first, listings_stringify]

/-- An upsert that fails has put some first rows of its batch and no others. A run that ends well,
from the table that the failure left or from the one before, leaves the table with all rows put one
by one, and a run ends well unless a statement fails. It can be under other limits than the run that
failed. -/
theorem upsert_again {e : Executor σ} (serves : Serves e view) (takes : l.Takes table rows)
    {settings : Settings} {s s' : Session σ} {fault : Fault}
    (stopped : (Store.mk e settings).save table rows .upsert s = (.error fault, s')) :
    ∃ final, (view s.server).putAll .replace (rows.map Listing.ofRecord) = some final ∧
      (∃ done, done <+: rows ∧
        (view s.server).putAll .replace (done.map Listing.ofRecord) = some (view s'.server)) ∧
      (∀ settings' again n after,
        (view again.server = view s'.server ∨ view again.server = view s.server) →
        (Store.mk e settings').save table rows .upsert again = (.ok n, after) →
        view after.server = final) ∧
      ∀ settings' again, Insertable table (rows.map Record.stringify) →
        e.Reliable again.server → ∃ n, ((Store.mk e settings').save table rows .upsert again).1 =
          .ok n := by
  obtain ⟨done, first, put', -⟩ := (Store.mk e settings).save_upsert serves takes s
  rw [stopped] at put'
  obtain ⟨final, put⟩ :=
    Table.exists_putAll_ofRecord (view s.server) .replace takes fun h => by cases h
  refine ⟨final, put, ⟨done, first, put'⟩, fun settings' again n after start completed => ?_,
    fun settings' again planned reliable =>
      (Store.mk e settings').save_completes planned again reliable⟩
  obtain ⟨all, -, again_put, whole⟩ := (Store.mk e settings').save_upsert serves takes again
  rw [completed] at again_put whole
  obtain rfl := whole n rfl
  -- The second run overwrites every row that the first one put.
  refine Table.ext fun k => Table.putAll_agree again_put put ?_
  by_cases own : k ∈ (all.map Listing.ofRecord).map l.keyOf
  · exact .inl own
  · right
    obtain same | same := start
    · rw [same]
      exact Table.putAll_other put' fun mem => own (((first.map _).map _).subset mem)
    · rw [same]

end Store

/-- An executor with a table and a count of its statements, one of which is lost. -/
def Executor.tabled (l : Layout κ) (lost : Nat) : Executor (Table l × Nat) where
  select _ s := (.ok .empty, s)
  execute sql _ s :=
    (if s.2 = lost then .error (.execution "lost") else .ok ⟨1, none⟩,
      if s.2 = lost then s.1 else (s.1.execute sql).getD s.1, s.2 + 1)
  stream _ s := (.ofStream .empty, s)
  ping s := (.ok (), s)

theorem serves_tabled (l : Layout κ) (lost : Nat) : Serves (Executor.tabled l lost) Prod.fst where
  done {sql server server' outcome t} h answer := by
    obtain ⟨result, rfl⟩ := Prod.mk.inj answer
    by_cases here : server.2 = lost
    · simp [here] at result
    · simp [here, h]
  failed {sql server server' fault t} h answer := by
    obtain ⟨result, rfl⟩ := Prod.mk.inj answer
    by_cases here : server.2 = lost
    · exact .inl (by simp [here])
    · simp [here] at result

theorem reliable_tabled (l : Layout κ) {lost : Nat} {server : Table l × Nat}
    (h : lost < server.2) : (Executor.tabled l lost).Reliable server := by
  intro calls
  induction calls generalizing server with
  | nil => exact ⟨[], rfl⟩
  | cons call rest ih =>
    have later : lost < ((Executor.tabled l lost).execute call.1 call.2 server).2.2 :=
      Nat.lt_succ_of_lt h
    obtain ⟨outcomes, answers⟩ := ih later
    have first : ((Executor.tabled l lost).execute call.1 call.2 server).1 = .ok ⟨1, none⟩ :=
      if_neg (Nat.ne_of_gt h)
    exact ⟨⟨1, none⟩ :: outcomes, by rw [Executor.answers, first, answers, List.map_cons]⟩

/-- Of three statements the second is lost. A second run ends well, and leaves nothing of the row
that only the first one put. -/
theorem upsert_again_lost :
    let db : Store (Table Table.plainLayout × Nat) :=
      ⟨.tabled Table.plainLayout 1, ⟨false, false, ⟨60, 10⟩⟩⟩
    let stopped := db.save "t" Table.mixedRows .upsert ⟨(.empty _, 0), []⟩
    let again := db.save "t" Table.mixedRows .upsert stopped.2
    stopped.1 = .error (.stopped 1 3 (.execution "lost")) ∧ (∃ n, again.1 = .ok n) ∧
      again.2.server.1.rows (.number "1") = some [.number "1", .null, .bool false] := by
  intro db stopped again
  have lost : stopped = (.error (.stopped 1 3 (.execution "lost")), stopped.2) := rfl
  obtain ⟨final, put, -, same, ends⟩ :=
    Store.upsert_again (serves_tabled Table.plainLayout 1) Table.takes_mixedRows lost
  have made : ∃ p, Batch.plan ⟨60, 10⟩ .replace "t" (Table.mixedRows.map Record.stringify) =
      .ok p := ⟨_, rfl⟩
  have planned : Insertable "t" (Table.mixedRows.map Record.stringify) :=
    ((Table.exists_plan_iff _ _ _ _).mp made).resolve_left (by simp [Table.mixedRows])
  have spent : stopped.2.server.2 = 2 := rfl
  obtain ⟨n, completed⟩ := ends db.settings stopped.2 planned
    (reliable_tabled _ (by rw [spent]; decide))
  have last : ((Table.empty Table.plainLayout).putAll .replace
      (Table.mixedRows.map Listing.ofRecord)).map (fun t => t.rows (.number "1")) =
        some (some [.number "1", .null, .bool false]) := rfl
  have left : again.2.server.1 = final :=
    same db.settings stopped.2 n again.2 (.inl rfl) (Prod.ext completed rfl)
  refine ⟨congrArg Prod.fst lost, ⟨n, completed⟩, ?_⟩
  rw [left]
  exact Option.some.inj ((congrArg _ put).symm.trans last)

end RowStore
