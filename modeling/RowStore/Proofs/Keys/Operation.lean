import RowStore.Proofs.Keys.Statement

/-!
# A key-value store is a map

Over an executor that carries out its statements, a key-value store does with its table what its
operations do with a finite map. What a key or a value holds does not matter.
-/

namespace RowStore

open RowStore.Sql (Condition pathNames)
open RowStore.Stream (Side gather)

/-! ## Operations -/

inductive KeyOperation where
  /-- A new table in place of the one that is there. -/
  | create
  | save (batch : List KeyEntry)
  | entries (ids : List String)
  | remove (ids : List String)
  | count
  /-- The pump and the consumer act in the order of `sides`, as in the other streams. -/
  | streamKeys (limit : Option UInt64) (sides : List Side)
  | streamValues (limit : Option UInt64) (sides : List Side)
  | streamEntries (limit : Option UInt64) (sides : List Side)

inductive KeyAnswer where
  | done
  | number (n : Nat)
  | keys (ks : List String)
  | values (vs : List (List UInt8))
  | entries (es : List KeyEntry)
  /-- A stream that does not come to its end. -/
  | endless

namespace KeyStore

variable {σ α : Type}

/-- Reads a stream to its end. -/
def collected (sides : List Side) (make : List α → KeyAnswer)
    (work : Work σ (StreamRequest σ α)) : Work σ KeyAnswer := do
  let request ← work
  let s ← Work.ask request.begin
  match s.collectAlong sides with
  | none => return .endless
  | some result => make <$> Work.ofExcept result

def perform (kv : KeyStore σ) (table : String) : KeyOperation → Work σ KeyAnswer
  | .create => do
    kv.createTable table true
    return .done
  | .save batch => do
    kv.save table batch
    return .done
  | .entries ids => KeyAnswer.entries <$> kv.entries table ids
  | .remove ids => (fun n => KeyAnswer.number n.toNat) <$> kv.remove table ids
  | .count => (fun n => KeyAnswer.number n.toNat) <$> kv.count table
  | .streamKeys limit sides => collected sides .keys (kv.streamKeys table limit)
  | .streamValues limit sides => collected sides .values (kv.streamValues table limit)
  | .streamEntries limit sides => collected sides .entries (kv.streamEntries table limit)

def performAll (kv : KeyStore σ) (table : String) : List KeyOperation → Work σ (List KeyAnswer)
  | [] => pure []
  | operation :: rest => do
    let answer ← kv.perform table operation
    let answers ← kv.performAll table rest
    return answer :: answers

end KeyStore

/-! ## Operations on a map -/

namespace KeyOperation

/-- The answer from all entries of a map. -/
def answer (all : List KeyEntry) : KeyOperation → KeyAnswer
  | create => .done
  | save _ => .done
  | entries ids => .entries (all.filter fun e => decide (e.1 ∈ ids))
  | remove ids => .number (all.filter fun e => decide (e.1 ∈ ids)).length
  | count => .number all.length
  | streamKeys limit _ => .keys ((firsts (limit.map UInt64.toNat) all).map (·.1))
  | streamValues limit _ => .values ((firsts (limit.map UInt64.toNat) all).map (·.2))
  | streamEntries limit _ => .entries (firsts (limit.map UInt64.toNat) all)

def after (m : KeyMap) : KeyOperation → KeyMap
  | create => fun _ => none
  | save batch => batch.foldl (fun m e => Function.update m e.1 (some e.2)) m
  | remove ids => fun key => if key ∈ ids then none else m key
  | _ => m

/-- A limit of a stream is at least one. -/
def Limited : KeyOperation → Prop
  | streamKeys limit _ => limit ≠ some 0
  | streamValues limit _ => limit ≠ some 0
  | streamEntries limit _ => limit ≠ some 0
  | _ => True

end KeyOperation

/-- Answers that a map gives to operations, one after the other. Each lists the entries in an order
of its own. -/
def Matches (m : KeyMap) : List KeyOperation → List KeyAnswer → Prop
  | [], answers => answers = []
  | operation :: rest, answers => ∃ all others, Lists all m ∧
      answers = operation.answer all :: others ∧ Matches (operation.after m) rest others

/-- The numbers in these answers are small enough for a server to give them. -/
def Counted (m : KeyMap) : List KeyOperation → Prop
  | [] => True
  | operation :: rest =>
    (∀ all n, Lists all m → operation.answer all = .number n → n < 2 ^ 63) ∧
      Counted (operation.after m) rest

theorem Lists.length_le {all : List KeyEntry} {m : KeyMap} {keys : List String} (h : Lists all m)
    (within : ∀ key value, m key = some value → key ∈ keys) : all.length ≤ keys.length := by
  have subset : all.map (·.1) ⊆ keys := by
    intro key hkey
    obtain ⟨e, he, rfl⟩ := List.mem_map.mp hkey
    exact within e.1 e.2 ((h.mem e.1 e.2).mp he)
  simpa using (h.nodup.subperm subset).length_le

namespace KeyOperation

theorem after_within {m : KeyMap} {keys : List String}
    (within : ∀ key value, m key = some value → key ∈ keys) (operation : KeyOperation)
    (saved : ∀ batch, operation = .save batch → ∀ e ∈ batch, e.1 ∈ keys) :
    ∀ key value, operation.after m key = some value → key ∈ keys := by
  cases operation with
  | create => exact fun _ _ h => nomatch h
  | save batch =>
    replace saved := saved batch rfl
    induction batch generalizing m with
    | nil => exact within
    | cons e rest ih =>
      refine ih (fun key value h => ?_) fun e' he' => saved e' (List.mem_cons_of_mem _ he')
      by_cases hkey : key = e.1
      · exact hkey ▸ saved e List.mem_cons_self
      · exact within key value ((Function.update_of_ne hkey _ m).symm.trans h)
  | remove ids =>
    intro key value h
    by_cases hkey : key ∈ ids
    · simp [after, hkey] at h
    · exact within key value (by simpa [after, hkey] using h)
  | _ => exact within

theorem number_le {all : List KeyEntry} {n : Nat} {operation : KeyOperation}
    (h : operation.answer all = .number n) : n ≤ all.length := by
  cases operation with
  | remove ids =>
    obtain rfl := KeyAnswer.number.inj h
    exact List.length_filter_le _ _
  | count => exact (KeyAnswer.number.inj h).ge
  | _ => cases h

end KeyOperation

theorem counted_of_keys {keys : List String} (small : keys.length < 2 ^ 63)
    (operations : List KeyOperation) {m : KeyMap}
    (within : ∀ key value, m key = some value → key ∈ keys)
    (saved : ∀ batch, .save batch ∈ operations → ∀ e ∈ batch, e.1 ∈ keys) :
    Counted m operations := by
  induction operations generalizing m with
  | nil => trivial
  | cons operation rest ih =>
    refine ⟨fun all n lists h => ?_, ih ?_ fun batch h => saved batch (List.mem_cons_of_mem _ h)⟩
    · have hall := lists.length_le within
      have hn := KeyOperation.number_le h
      omega
    · refine operation.after_within within fun batch h => saved batch ?_
      rw [h]
      exact List.mem_cons_self

/-- What an operation on a table does to the map in it. -/
structure Steps (operation : KeyOperation) (t : KeyTable) (answer : KeyAnswer) (t' : KeyTable) :
    Prop where
  answers : ∃ all, Lists all t.toMap ∧ answer = operation.answer all
  toMap : t'.toMap = operation.after t.toMap

theorem Steps.reading {operation : KeyOperation} {t : KeyTable} {answer : KeyAnswer}
    (same : operation.after t.toMap = t.toMap) {all : List KeyEntry} (perm : all.Perm t.entries)
    (h : answer = operation.answer all) : Steps operation t answer t where
  answers := ⟨all, t.lists_entries.perm perm, h⟩
  toMap := same.symm

/-! ## Rows of a table -/

theorem KeyStore.decode_all {β : Type} (f : Record → Except Fault β) (g : KeyEntry → β)
    (columns : List String)
    (decode : ∀ e, f (ResultRow.recordOfCells columns (columns.map (KeyEntry.cell e))) = .ok (g e))
    (es : List KeyEntry) :
    ((es.map fun e => columns.map (KeyEntry.cell e)).map
      (ResultRow.recordOfCells columns)).mapM f = .ok (es.map g) := by
  induction es with
  | nil => rfl
  | cons e rest ih =>
    rw [List.map_cons, List.map_cons, List.mapM_cons, decode, ih]
    rfl

theorem KeyStore.keyOf_cells (e : KeyEntry) :
    keyOf (ResultRow.recordOfCells ["id"] (["id"].map (KeyEntry.cell e))) = .ok e.1 := rfl

theorem KeyStore.valueOf_cells (e : KeyEntry) :
    valueOf (ResultRow.recordOfCells ["v"] (["v"].map (KeyEntry.cell e))) = .ok e.2 := rfl

theorem KeyStore.entryOf_cells (e : KeyEntry) :
    entryOf (ResultRow.recordOfCells ["id", "v"] (["id", "v"].map (KeyEntry.cell e))) =
      .ok e := rfl

theorem Stream.gather_bind {α β : Type} {finish : Record → Except Fault α}
    (f : α → Except Fault β) {items : List Item} {values : List α}
    (h : gather finish items = .ok values) :
    gather (fun r => finish r >>= f) items = values.mapM f := by
  induction items generalizing values with
  | nil =>
    obtain rfl := Except.ok.inj h
    rfl
  | cons item rest ih =>
    rw [gather_cons] at h ⊢
    obtain ⟨value, hvalue, h⟩ := Checks.bind_eq_ok.mp h
    obtain ⟨others, hothers, rfl⟩ := Checks.map_eq_ok.mp h
    have hitem : (item >>= fun r => finish r >>= f) = f value := by
      rw [← bind_assoc, hvalue]
      rfl
    rw [hitem, ih hothers, List.mapM_cons]
    cases f value with
    | error fault => rfl
    | ok b => cases others.mapM f <;> rfl

/-! ## Steps -/

namespace KeyStore

variable {σ : Type} (kv : KeyStore σ) {table : String} {view : σ → Option KeyTable}
variable (htable : Text.blankOnly table = false)
variable (serves : ServesKeys kv.store.executor (pathNames table) view)
variable {t : KeyTable}
include serves

theorem saveFrom_step (batch : List KeyEntry) (completed total : Nat) (s : Session σ)
    (there : view s.server = some t) :
    ∃ s' t', kv.saveFrom ("REPLACE INTO " ++ Sql.quotePath table ++ " (`id`, `v`) VALUES (?, ?)")
        completed total batch s = (.ok (), s') ∧ view s'.server = some t' ∧
      Steps (.save batch) t .done t' := by
  induction batch generalizing completed t s with
  | nil => exact ⟨s, t, rfl, there, ⟨t.entries, t.lists_entries, rfl⟩, rfl⟩
  | cons e rest ih =>
    obtain ⟨outcome, s₁, run, put, -⟩ := kv.store.execute_serves serves
      (KeyCommand.read_replace table e.1 e.2) (by simp [KeyCommand.Known, KeyCommand.columns]) s
      (by rw [there]; rfl)
    obtain ⟨s', t', saved, there', steps⟩ := ih (completed + 1) s₁ put
    refine ⟨s', t', ?_, there', ⟨t.entries, t.lists_entries, rfl⟩, ?_⟩
    · rw [saveFrom, Work.bind_ok _ (Work.attempt_apply _ s), run]
      exact saved
    · rw [steps.toMap, KeyTable.toMap_put]
      rfl

include htable

theorem create_step (s : Session σ) :
    ∃ s', kv.createTable table true s = (.ok (), s') ∧ view s'.server = some .empty := by
  obtain ⟨_, s₁, dropped, gone, -⟩ := kv.store.execute_serves serves (KeyCommand.read_drop table)
    (by simp [KeyCommand.Known, KeyCommand.columns]) s rfl
  obtain ⟨_, s₂, created, there, -⟩ := kv.store.execute_serves serves (KeyCommand.read_create table)
    (by simp [KeyCommand.Known, KeyCommand.columns]) s₁ (by rw [gone]; rfl)
  refine ⟨s₂, ?_, there⟩
  have drop : kv.dropTable table s = (.ok (), s₁) := by
    unfold KeyStore.dropTable Store.dropTable
    rw [Work.bind_ofExcept_ok _ (checkedTable_eq htable), Work.bind_ok _ dropped]
    rfl
  unfold createTable
  rw [if_pos rfl, Work.bind_ok _ drop, Work.bind_ofExcept_ok _ (checkedTable_eq htable)]
  exact Work.bind_ok _ created

theorem save_step (batch : List KeyEntry) (s : Session σ) (there : view s.server = some t) :
    ∃ s' t', kv.save table batch s = (.ok (), s') ∧ view s'.server = some t' ∧
      Steps (.save batch) t .done t' := by
  rw [kv.save_apply (fun _ => checkedTable_eq htable) s]
  exact kv.saveFrom_step serves batch 0 batch.length s there

theorem entries_step (ids : List String) (s : Session σ) (there : view s.server = some t) :
    ∃ es s', kv.entries table ids s = (.ok es, s') ∧ view s'.server = some t ∧
      Steps (.entries ids) t (.entries es) t := by
  cases ids with
  | nil => exact ⟨[], s, rfl, there, .reading rfl (.refl _) (by simp [KeyOperation.answer])⟩
  | cons id ids =>
    obtain ⟨columns, rows, s', ⟨rfl, all, perm, rfl⟩, run, kept⟩ := kv.store.records_serves serves
      (toSelect_ids htable id ids) rfl
      (KeyCommand.read_select table (readable_ids _) (hasOptions_ids id ids) ["id", "v"] (by simp)
        none)
      (known_ids _ (by simp) _ none) s there ⟨_, _, rfl, _, .refl _, rfl⟩
    let found := all.filter fun e => decide (e.1 ∈ id :: ids)
    have picked : firsts none (all.filter
        (KeyEntry.passes [.among "id" ((id :: ids).map .string)])) = found :=
      List.filter_congr fun e _ => KeyEntry.passes_among (id :: ids) e
    rw [picked] at run
    refine ⟨found, s', ?_, kept, .reading rfl perm rfl⟩
    unfold entries
    rw [if_neg (by simp), Work.bind_ok _ run, decode_all entryOf (fun e => e) _ entryOf_cells]
    simp [Work.ofExcept_apply]

theorem remove_step (ids : List String) (s : Session σ) (there : view s.server = some t)
    (small : (t.entries.filter fun e => decide (e.1 ∈ ids)).length < 2 ^ 63) :
    ∃ n s' t', kv.remove table ids s = (.ok n, s') ∧ view s'.server = some t' ∧
      Steps (.remove ids) t (.number n.toNat) t' := by
  cases ids with
  | nil =>
    refine ⟨0, s, t, ?_, there, .reading ?_ (.refl _) (by simp [KeyOperation.answer])⟩
    · unfold remove
      rw [Work.bind_ofExcept_ok _ (toDelete_nil htable)]
      rfl
    · funext key
      simp [KeyOperation.after]
  | cons id ids =>
    obtain ⟨outcome, s', run, left, affected⟩ := kv.store.execute_serves serves
      (KeyCommand.read_delete table (readable_ids _) (hasOptions_ids id ids))
      (fun c h => by simp_all [KeyCommand.columns, Condition.column]) s (by rw [there]; rfl)
    have passes : KeyEntry.passes [.among "id" ((id :: ids).map .string)] =
        fun e => decide (e.1 ∈ id :: ids) := funext (KeyEntry.passes_among (id :: ids))
    have number := affected _ t rfl there
    rw [passes] at number left
    refine ⟨outcome.affected, s', _, ?_, left, ⟨t.entries, t.lists_entries, ?_⟩,
      t.toMap_without (id :: ids)⟩
    · unfold remove
      rw [Work.bind_ofExcept_ok _ (toDelete_ids htable id ids)]
      exact Work.bind_ok _ run
    · rw [number, UInt64.toNat_ofNat_of_lt' (small.trans (by decide))]
      rfl

theorem count_step (s : Session σ) (there : view s.server = some t)
    (small : t.entries.length < 2 ^ 63) :
    ∃ n s', kv.count table s = (.ok n, s') ∧ view s'.server = some t ∧
      Steps .count t (.number n.toNat) t := by
  have all : t.entries.filter (KeyEntry.passes []) = t.entries :=
    List.filter_eq_self.mpr fun e _ => KeyEntry.passes_nil e
  obtain ⟨n, s', run, number, kept⟩ := kv.store.count_serves serves (toCount_ofTable htable)
    (KeyCommand.read_count table (by simp) (by simp) _) (fun c h => by simp_all [KeyCommand.columns])
    s there (by rw [all]; exact small)
  rw [all] at number
  exact ⟨n, s', run, kept, .reading rfl (.refl _) (by rw [number]; rfl)⟩

theorem collected_step {β : Type} (columns : List String) (hne : columns ≠ [])
    (known : ∀ c ∈ columns, c ∈ ["id", "v"]) (sound : Query.columns columns = .ok columns)
    (f : Record → Except Fault β) (g : KeyEntry → β)
    (decode : ∀ e, f (ResultRow.recordOfCells columns (columns.map (KeyEntry.cell e))) = .ok (g e))
    (make : List β → KeyAnswer) (limit : Option UInt64) (limited : limit ≠ some 0)
    (sides : List Side) (s : Session σ) (there : view s.server = some t) :
    ∃ all s', all.Perm t.entries ∧ view s'.server = some t ∧
      collected sides make (kv.stream table columns limit >>= fun request => pure (request.map f)) s =
        (.ok (make ((firsts (limit.map UInt64.toNat) all).map g)), s') := by
  obtain ⟨request, s₁, names, rows, begun, later, run, ⟨rfl, all, perm, rfl⟩, begin', kept, free,
    worth⟩ := kv.store.stream_serves serves (toSelect_columns htable columns hne sound limit limited)
    (by simp [Query.selectsNothing, Query.withLimit, Query.select, hne])
    (KeyCommand.read_select table (by simp) (by simp) columns hne _)
    (fun c h => known c (by simpa [KeyCommand.columns] using h)) s there
    ⟨_, _, rfl, _, .refl _, rfl⟩
  have every : all.filter (KeyEntry.passes []) = all :=
    List.filter_eq_self.mpr fun e _ => KeyEntry.passes_nil e
  rw [every] at worth
  have asked : (kv.stream table names limit >>= fun request => pure (request.map f)) s =
      (.ok (request.map f), s₁) := Work.bind_ok _ run
  have begins : Work.ask (request.map f).begin s₁ =
      (.ok (begun.map f), ⟨later, s₁.journal⟩) := by
    simp [Work.ask, StreamRequest.map, begin']
  have gathered : (begun.map f).collectAlong sides =
      some (.ok ((firsts (limit.map UInt64.toNat) all).map g)) := by
    rw [Stream.collectAlong_eq sides (s := begun.map f) free]
    exact congrArg some ((Stream.gather_bind f worth).trans (decode_all f g names decode _))
  refine ⟨all, ⟨later, s₁.journal⟩, perm, kept, ?_⟩
  unfold collected
  rw [Work.bind_ok _ asked, Work.bind_ok _ begins, gathered]
  rfl

end KeyStore

end RowStore
