import RowStore.Proofs.Flow.Collecting
import RowStore.Proofs.Keys.Command
import RowStore.Proofs.Record
import RowStore.Proofs.Sql.Truth
import RowStore.Store.Executor

/-!
# Tables of keys

A table has each key once, with its bytes. What it holds is a finite map, and the order of its rows
is for the server to choose.
-/

namespace RowStore

open Sql (Condition Literal)

abbrev KeyEntry := String × List UInt8

abbrev KeyMap := String → Option (List UInt8)

/-- All entries of a map, in one of their orders. -/
structure Lists (all : List KeyEntry) (m : KeyMap) : Prop where
  nodup : (all.map (·.1)).Nodup
  mem (key : String) (value : List UInt8) : (key, value) ∈ all ↔ m key = some value

theorem Lists.perm {all other : List KeyEntry} {m : KeyMap} (h : Lists all m)
    (hperm : other.Perm all) : Lists other m where
  nodup := (hperm.map _).nodup_iff.mpr h.nodup
  mem key value := by rw [hperm.mem_iff, h.mem]

structure KeyTable where
  entries : List KeyEntry
  nodup : (entries.map (·.1)).Nodup

namespace KeyTable

def empty : KeyTable := ⟨[], List.nodup_nil⟩

def without (t : KeyTable) (p : KeyEntry → Bool) : KeyTable where
  entries := t.entries.filter fun e => !p e
  nodup := t.nodup.sublist (List.filter_sublist.map _)

/-- Stores an entry in place of what its key had before. -/
def put (t : KeyTable) (key : String) (value : List UInt8) : KeyTable where
  entries := (key, value) :: (t.without (·.1 == key)).entries
  nodup := by
    rw [List.map_cons, List.nodup_cons]
    refine ⟨?_, (t.without _).nodup⟩
    intro hkey
    obtain ⟨e, he, heq⟩ := List.mem_map.mp hkey
    simp [without, heq] at he

/-! ## The map in a table -/

def toMap (t : KeyTable) : KeyMap := fun key => t.entries.lookup key

theorem lists_entries (t : KeyTable) : Lists t.entries t.toMap :=
  ⟨t.nodup, fun key value => (lookup_eq_some_iff_mem t.nodup key value).symm⟩

theorem toMap_put (t : KeyTable) (key : String) (value : List UInt8) :
    (t.put key value).toMap = Function.update t.toMap key (some value) := by
  funext k
  apply Option.ext
  intro v
  rw [← (t.put key value).lists_entries.mem]
  by_cases hkey : k = key
  · subst hkey
    simp [put, without, eq_comm]
  · rw [Function.update_of_ne hkey, ← t.lists_entries.mem]
    simp [put, without, hkey]

theorem toMap_without (t : KeyTable) (ids : List String) :
    (t.without fun e => decide (e.1 ∈ ids)).toMap = fun k => if k ∈ ids then none else t.toMap k := by
  funext k
  apply Option.ext
  intro v
  rw [← (t.without _).lists_entries.mem]
  by_cases hkey : k ∈ ids
  · simp [without, hkey]
  · rw [if_neg hkey, ← t.lists_entries.mem]
    simp [without, hkey]

end KeyTable

/-! ## Commands -/

namespace KeyEntry

def literal (e : KeyEntry) (column : String) : Option Literal :=
  if column = "id" then some (.string e.1)
  else if column = "v" then some (.binary e.2)
  else none

def cell (e : KeyEntry) (column : String) : Cell :=
  if column = "id" then some (.text e.1)
  else if column = "v" then some (.blob e.2)
  else none

/-- Keys and values are compared as they are. -/
def passes (conditions : List Condition) (e : KeyEntry) : Bool :=
  Sql.whereTruth Sql.holdsExactly (literal e) conditions == some true

theorem passes_nil (e : KeyEntry) : passes [] e = true := rfl

theorem passes_among (ids : List String) (e : KeyEntry) :
    passes [.among "id" (ids.map .string)] e = decide (e.1 ∈ ids) := by
  rw [Bool.eq_iff_iff, passes, beq_iff_eq, Sql.whereTruth_eq_true, decide_eq_true_iff]
  simp [Condition.truth, Sql.memberTruth_eq_true, literal, Sql.compareTruth_eq_some,
    Sql.holdsExactly]

end KeyEntry

/-- The first of some items, or all of them. -/
def firsts {α : Type} (limit : Option Nat) (items : List α) : List α :=
  match limit with
  | none => items
  | some n => items.take n

namespace KeyCommand

/-- What a command leaves of a table, unless it cannot be carried out. There is no table where it
was dropped. -/
def carryOut : KeyCommand → Option KeyTable → Option (Option KeyTable)
  | drop, _ => some none
  | create, none => some (some .empty)
  | replace key value, some t => some (some (t.put key value))
  | delete conditions, some t => some (some (t.without (KeyEntry.passes conditions)))
  | _, _ => none

/-- The rows that a command can be answered with, under the names of their columns. -/
def Finds (t : KeyTable) : KeyCommand → List String → List (List Cell) → Prop
  | select columns conditions limit, names, rows =>
    names = columns ∧ ∃ all : List KeyEntry, all.Perm t.entries ∧
      rows = (firsts limit (all.filter (KeyEntry.passes conditions))).map fun e =>
        columns.map (KeyEntry.cell e)
  | count column conditions, names, rows =>
    names = [column] ∧ ∃ n : Int64, rows = [[some (.int n)]] ∧
      n.toInt = (t.entries.filter (KeyEntry.passes conditions)).length
  | _, _, _ => False

/-- True of a command that looks at no column but those of the table. -/
def Known (c : KeyCommand) : Prop := ∀ column ∈ c.columns, column ∈ ["id", "v"]

end KeyCommand

/-- An executor with a table of keys somewhere in its state. It carries out every statement for this
table that can be carried out, and answers from what the table holds then. -/
structure ServesKeys {σ : Type} (e : Executor σ) (path : List String)
    (view : σ → Option KeyTable) : Prop where
  execute {sql : String} {params : List Value} {server : σ} {command : KeyCommand}
    {after : Option KeyTable} (read : KeyCommand.read sql params = some (path, command))
    (known : command.Known) (carried : command.carryOut (view server) = some after) :
    ∃ outcome server', e.execute sql params server = (.ok outcome, server') ∧
      view server' = after ∧
      ∀ conditions t, command = .delete conditions → view server = some t →
        outcome.affected = UInt64.ofNat (t.entries.filter (KeyEntry.passes conditions)).length
  select {sql : String} {server : σ} {command : KeyCommand} {t : KeyTable}
    (read : KeyCommand.read sql [] = some (path, command)) (known : command.Known)
    (there : view server = some t) (found : ∃ columns rows, command.Finds t columns rows) :
    ∃ columns rows server', command.Finds t columns rows ∧
      e.select sql server = (.ok (.ofRows columns rows), server') ∧ view server' = some t
  stream {sql : String} {server : σ} {command : KeyCommand}
    (read : KeyCommand.read sql [] = some (path, command)) (known : command.Known) :
    ∃ request server', e.stream sql server = (request, server') ∧ view server' = view server ∧
      ∀ later t, view later = some t → (∃ columns rows, command.Finds t columns rows) →
        ∃ columns rows s later', command.Finds t columns rows ∧
          request.begin later = (s, later') ∧ view later' = some t ∧ s.pump.Free ∧
          Stream.gather s.finish s.pump.upcoming =
            .ok (rows.map (ResultRow.recordOfCells columns))

end RowStore
