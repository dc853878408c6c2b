import RowStore.Proofs.Keys.Memory
import RowStore.Proofs.Keys.Operation

/-!
# Any operations, one after the other

One step for each operation, and from it the whole run by induction on the operations. The invariant
is that the server has the map in its table. A server that keeps the table in memory is an example.
-/

namespace RowStore

open RowStore.Sql (pathNames)
open RowStore.Stream (gather)

theorem Work.map_ok {σ α β : Type} {w : Work σ α} {s s' : Session σ} {a : α} (f : α → β)
    (h : w s = (.ok a, s')) : (f <$> w) s = (.ok (f a), s') := by
  rw [map_eq_pure_bind, Work.bind_ok _ h]
  rfl

namespace KeyTable

/-- The map in a place for a table. There is nothing in it where there is no table. -/
def held : Option KeyTable → KeyMap
  | none => fun _ => none
  | some t => t.toMap

end KeyTable

namespace KeyStore

variable {σ : Type} (kv : KeyStore σ) {table : String} {view : σ → Option KeyTable}

/-! ## One operation -/

section

variable (htable : Text.blankOnly table = false)
variable (serves : ServesKeys kv.store.executor (pathNames table) view)
include htable serves

theorem perform_create (s : Session σ) :
    ∃ s', kv.perform table .create s = (.ok .done, s') ∧ view s'.server = some .empty := by
  obtain ⟨s', run, there⟩ := kv.create_step htable serves s
  exact ⟨s', Work.bind_ok _ run, there⟩

theorem perform_step {t : KeyTable} (operation : KeyOperation) (limited : operation.Limited)
    (s : Session σ) (there : view s.server = some t)
    (small : ∀ n, operation.answer t.entries = .number n → n < 2 ^ 63) :
    ∃ answer s' t', kv.perform table operation s = (.ok answer, s') ∧
      view s'.server = some t' ∧ Steps operation t answer t' := by
  cases operation with
  | create =>
    obtain ⟨s', run, there'⟩ := kv.perform_create htable serves s
    exact ⟨.done, s', .empty, run, there', ⟨t.entries, t.lists_entries, rfl⟩, rfl⟩
  | save batch =>
    obtain ⟨s', t', run, there', steps⟩ := kv.save_step htable serves batch s there
    exact ⟨.done, s', t', Work.bind_ok _ run, there', steps⟩
  | entries ids =>
    obtain ⟨es, s', run, there', steps⟩ := kv.entries_step htable serves ids s there
    exact ⟨.entries es, s', t, Work.map_ok _ run, there', steps⟩
  | remove ids =>
    obtain ⟨n, s', t', run, there', steps⟩ := kv.remove_step htable serves ids s there (small _ rfl)
    exact ⟨.number n.toNat, s', t', Work.map_ok _ run, there', steps⟩
  | count =>
    obtain ⟨n, s', run, there', steps⟩ := kv.count_step htable serves s there (small _ rfl)
    exact ⟨.number n.toNat, s', t, Work.map_ok _ run, there', steps⟩
  | streamKeys limit sides =>
    obtain ⟨all, s', perm, there', run⟩ := kv.collected_step htable serves ["id"] (by simp)
      (by simp) rfl keyOf _ keyOf_cells .keys limit limited sides s there
    exact ⟨_, s', t, run, there', .reading rfl perm rfl⟩
  | streamValues limit sides =>
    obtain ⟨all, s', perm, there', run⟩ := kv.collected_step htable serves ["v"] (by simp)
      (by simp) rfl valueOf _ valueOf_cells .values limit limited sides s there
    exact ⟨_, s', t, run, there', .reading rfl perm rfl⟩
  | streamEntries limit sides =>
    obtain ⟨all, s', perm, there', run⟩ := kv.collected_step htable serves ["id", "v"] (by simp)
      (by simp) rfl entryOf (fun e => e) entryOf_cells .entries limit limited sides s there
    rw [List.map_id'] at run
    exact ⟨_, s', t, run, there', .reading rfl perm rfl⟩

/-! ## All of them -/

theorem performAll_held {t : KeyTable} (operations : List KeyOperation)
    (limited : ∀ o ∈ operations, o.Limited) (s : Session σ) (there : view s.server = some t)
    (counted : Counted t.toMap operations) :
    ∃ answers s', kv.performAll table operations s = (.ok answers, s') ∧
      Matches t.toMap operations answers ∧
      KeyTable.held (view s'.server) = operations.foldl KeyOperation.after t.toMap := by
  induction operations generalizing t s with
  | nil => exact ⟨[], s, rfl, rfl, by rw [there]; rfl⟩
  | cons operation rest ih =>
    obtain ⟨small, counted⟩ := counted
    obtain ⟨answer, s₁, t₁, first, there₁, ⟨all, lists, rfl⟩, map₁⟩ :=
      kv.perform_step htable serves operation (limited _ List.mem_cons_self) s there
        (fun n => small t.entries n t.lists_entries)
    rw [← map₁] at counted
    obtain ⟨answers, s', others, matching, held⟩ :=
      ih (fun o h => limited o (List.mem_cons_of_mem _ h)) s₁ there₁ counted
    rw [map₁] at matching held
    refine ⟨operation.answer all :: answers, s', ?_, ⟨all, answers, lists, rfl, matching⟩, held⟩
    rw [performAll, Work.bind_ok _ first, Work.bind_ok _ others]
    rfl

end

/-- Over an executor that carries out what it reads, a key-value store does with its table what a
map from keys to values does. Before the first operation there is a table, unless that operation
makes one. -/
theorem performAll_refines_map (htable : Text.blankOnly table = false)
    (serves : ServesKeys kv.store.executor (pathNames table) view)
    (operations : List KeyOperation) (limited : ∀ o ∈ operations, o.Limited) (s : Session σ)
    (begins : (view s.server).isSome ∨ operations.head? = some .create)
    (counted : Counted (KeyTable.held (view s.server)) operations) :
    ∃ answers s', kv.performAll table operations s = (.ok answers, s') ∧
      Matches (KeyTable.held (view s.server)) operations answers ∧
      KeyTable.held (view s'.server) =
        operations.foldl KeyOperation.after (KeyTable.held (view s.server)) := by
  cases there : view s.server with
  | some t =>
    rw [there] at counted
    exact kv.performAll_held htable serves operations limited s there counted
  | none =>
    rw [there] at begins counted
    have first : operations.head? = some .create := begins.resolve_left (by simp)
    obtain ⟨rest, rfl⟩ := List.head?_eq_some_iff.mp first
    obtain ⟨s₁, created, there₁⟩ := kv.perform_create htable serves s
    obtain ⟨answers, s', others, matching, held⟩ := kv.performAll_held htable serves rest
      (fun o h => limited o (List.mem_cons_of_mem _ h)) s₁ there₁ counted.2
    refine ⟨.done :: answers, s', ?_, ⟨[], answers, ⟨List.nodup_nil, ?_⟩, rfl, matching⟩, held⟩
    · rw [performAll, Work.bind_ok _ created, Work.bind_ok _ others]
      rfl
    · simp [KeyTable.held]

def hostileOperations : List KeyOperation :=
  [.create,
    .save [("it\x27s", [1]), ("\x5c\x27 OR 1=1 -- ", [2]), ("a\x00b", [3]), ("\x60\"", [])],
    .save [("it\x27s", [0, 255])],
    .entries ["it\x27s", "a\x00b", "it\x27s", "absent"],
    .remove ["a\x00b", "a\x00b", "absent"],
    .entries [],
    .count,
    .streamKeys (some 2) [.pump, .consumer],
    .streamValues none [],
    .streamEntries (some 9) [.consumer]]

def memoryStore : KeyStore (Option KeyTable) :=
  ⟨⟨KeyMemory.executor (pathNames "shop.odd\x60name") 2, .standard⟩⟩

theorem performAll_refines_map_hostile :
    ∃ answers s', memoryStore.performAll "shop.odd\x60name" hostileOperations ⟨none, []⟩ =
        (.ok answers, s') ∧
      Matches (fun _ => none) hostileOperations answers ∧
      KeyTable.held s'.server "it\x27s" = some [0, 255] ∧
      KeyTable.held s'.server "a\x00b" = none := by
  let keys := ["it\x27s", "\x5c\x27 OR 1=1 -- ", "a\x00b", "\x60\""]
  have small : keys.length < 2 ^ 63 := by simp [keys]
  have counted : Counted (fun _ => none) hostileOperations :=
    counted_of_keys small hostileOperations (fun _ _ h => nomatch h)
      (by simp [hostileOperations, keys, or_imp, forall_and])
  obtain ⟨answers, s', run, matching, held⟩ := performAll_refines_map memoryStore (by decide)
    (KeyMemory.serves _ 2) hostileOperations
    (by simp [hostileOperations, KeyOperation.Limited]) ⟨none, []⟩ (.inr rfl) counted
  rw [id_eq] at held
  refine ⟨answers, s', run, matching, ?_, ?_⟩
  · rw [held]
    decide
  · rw [held]
    decide

end KeyStore

end RowStore
