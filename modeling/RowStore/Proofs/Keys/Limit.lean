import RowStore.Proofs.Keys.Memory
import RowStore.Proofs.Keys.Statement

/-!
# Limits of streams

The statement of a stream brings at most as many rows as its limit allows, from any table. Without a
limit it brings every row. So it does with the limit zero, which stands for none.
-/

namespace RowStore

open Sql (Literal pathNames)

/-! ## What a statement brings -/

theorem length_firsts {α : Type} (limit : Option Nat) (items : List α) :
    (firsts limit items).length = limit.elim items.length (min · items.length) := by
  cases limit with
  | none => rfl
  | some n => exact List.length_take

/-- The rows that the text of a statement brings from the table at a path. The table has any rows,
each with a cell for every column, in the order in which the server comes to them. -/
def selected? (holds : Value → Comparison → Literal → Bool) (path : List String)
    (rows : List (String → Cell)) (sql : String) : Option (List (List Cell)) :=
  match KeyCommand.read sql [] with
  | some (named, .select columns conditions limit) =>
    if named = path then
      let passing := rows.filter fun row => Sql.whereTruth holds row conditions == some true
      some ((firsts limit passing).map fun row => columns.map row)
    else none
  | _ => none

/-- The statement for columns of all rows up to a limit, where zero stands for no limit. -/
def streamStatement (table : String) (columns : List String) (limit : Option UInt64) :
    Sql.Statement :=
  .select ⟨false, some columns, table, [], [], [],
    KeyCommand.window ((limit.bind Query.positive).map UInt64.toNat)⟩

theorem selected?_streamStatement (holds : Value → Comparison → Literal → Bool) (table : String)
    (columns : List String) (hne : columns ≠ []) (limit : Option UInt64)
    (rows : List (String → Cell)) :
    selected? holds (pathNames table) rows (streamStatement table columns limit).text =
      some ((firsts ((limit.bind Query.positive).map UInt64.toNat) rows).map
        fun row => columns.map row) := by
  have hpassing : (rows.filter fun row => Sql.whereTruth holds row [] == some true) = rows := by
    rw [List.filter_eq_self]
    intro row _
    rfl
  unfold selected? streamStatement
  rw [KeyCommand.read_select table (by simp) (by simp) columns hne]
  simp [hpassing]

theorem streamStatement_brings (holds : Value → Comparison → Literal → Bool) (table : String)
    (columns : List String) (hne : columns ≠ []) (limit : Option UInt64)
    (rows : List (String → Cell)) :
    ∃ answer, selected? holds (pathNames table) rows
        (streamStatement table columns limit).text = some answer ∧
      (∀ n, limit = some n → n ≠ 0 → answer.length = min n.toNat rows.length) ∧
      (limit = none ∨ limit = some 0 → answer.length = rows.length) := by
  refine ⟨_, selected?_streamStatement holds table columns hne limit rows, ?_, ?_⟩
  · rintro n rfl hn
    simp [length_firsts, Query.positive, hn]
  · rintro (rfl | rfl) <;> simp [length_firsts, Query.positive]

/-! ## What a stream sends -/

variable {σ α β : Type}

/-- Work that asks the executor for the stream of one statement and for nothing else. -/
def Sends (work : Work (Recorded σ) (StreamRequest (Recorded σ) α)) (sql : String) : Prop :=
  ∀ s, ∃ request s', work s = (.ok request, s') ∧
    s'.server.calls = s.server.calls ++ [.stream sql]

theorem Sends.map {work : Work (Recorded σ) (StreamRequest (Recorded σ) α)} {sql : String}
    (h : Sends work sql) (f : α → Except Fault β) :
    Sends (work >>= fun request => pure (request.map f)) sql := by
  intro s
  obtain ⟨request, s', run, calls⟩ := h s
  exact ⟨request.map f, s', Work.bind_ok _ run, calls⟩

theorem Query.positive_ne_zero (limit : Option UInt64) : limit.bind positive ≠ some 0 := by
  rw [bind_positive]
  split
  · simp
  · simpa

theorem Query.getD_positive (limit : Option UInt64) :
    (limit.bind positive).getD 0 = limit.getD 0 := by
  rw [bind_positive]
  split
  · simp [*]
  · rfl

/-- A key-value store with one table in memory. -/
def KeyMemory.store (path : List String) : KeyStore (Option KeyTable) :=
  ⟨⟨executor path 2, .standard⟩⟩

namespace KeyStore

section

variable (kv : KeyStore σ) {table : String} (accepted : Text.blankOnly table = false)
include accepted

theorem sends_stream (columns : List String) (hne : columns ≠ [])
    (hcolumns : Query.columns columns = .ok columns) (limit : Option UInt64) :
    Sends (kv.recorded.stream table columns limit)
      (streamStatement table columns limit).text := by
  intro s
  have hselect := toSelect_columns accepted columns hne hcolumns (limit.bind Query.positive)
    (Query.positive_ne_zero limit)
  rw [Query.getD_positive] at hselect
  obtain ⟨journal, run⟩ := kv.recorded.store.stream_apply hselect s
  exact ⟨_, _, run, rfl⟩

/-- Each stream sends one statement. From any table it brings as many rows as a limit from one on
allows, or all if there are fewer. Without a limit it brings all of them, and with the limit zero
as well. -/
theorem stream_limits (holds : Value → Comparison → Literal → Bool) (limit : Option UInt64) :
    ∃ keys values entries : String,
      Sends (kv.recorded.streamKeys table limit) keys ∧
      Sends (kv.recorded.streamValues table limit) values ∧
      Sends (kv.recorded.streamEntries table limit) entries ∧
      ∀ sql ∈ [keys, values, entries], ∀ rows, ∃ answer,
        selected? holds (pathNames table) rows sql = some answer ∧
        (∀ n, limit = some n → n ≠ 0 → answer.length = min n.toNat rows.length) ∧
        (limit = none ∨ limit = some 0 → answer.length = rows.length) := by
  refine ⟨_, _, _, (kv.sends_stream accepted ["id"] (by simp) rfl limit).map keyOf,
    (kv.sends_stream accepted ["v"] (by simp) rfl limit).map valueOf,
    (kv.sends_stream accepted ["id", "v"] (by simp) rfl limit).map entryOf, ?_⟩
  intro sql hsql
  simp only [List.mem_cons, List.not_mem_nil, or_false] at hsql
  rcases hsql with rfl | rfl | rfl
  · exact streamStatement_brings holds table ["id"] (by simp) limit
  · exact streamStatement_brings holds table ["v"] (by simp) limit
  · exact streamStatement_brings holds table ["id", "v"] (by simp) limit

end

theorem stream_limits_greatest :
    Text.blankOnly "shop.odd\x60name" = false ∧
    ∃ sql, Sends ((KeyMemory.store (pathNames "shop.odd\x60name")).recorded.streamEntries
        "shop.odd\x60name" (some 18446744073709551615)) sql ∧
      ∀ rows, ∃ answer,
        selected? (fun _ _ _ => false) (pathNames "shop.odd\x60name") rows sql = some answer ∧
        answer.length = min 18446744073709551615 rows.length := by
  have accepted : Text.blankOnly "shop.odd\x60name" = false := by decide
  obtain ⟨keys, values, entries, -, -, sends, brings⟩ :=
    stream_limits (KeyMemory.store (pathNames "shop.odd\x60name")) accepted (fun _ _ _ => false)
      (some 18446744073709551615)
  refine ⟨accepted, entries, sends, ?_⟩
  intro rows
  obtain ⟨answer, hanswer, hlimited, -⟩ := brings entries (by simp) rows
  exact ⟨answer, hanswer, hlimited _ rfl (by decide)⟩

/-- With the limit zero a stream brings a row. -/
theorem zero_limit_brings_row :
    Sends ((KeyMemory.store ["t"]).recorded.streamKeys "t" (some 0)) "SELECT `id` FROM `t`" ∧
    ∃ answer, selected? (fun _ _ _ => false) ["t"] [fun _ => some (.text "a")]
        "SELECT `id` FROM `t`" = some answer ∧
      ¬ answer.length ≤ (0 : UInt64).toNat := by
  have htext : (streamStatement "t" ["id"] (some 0)).text = "SELECT `id` FROM `t`" := by decide
  rw [← htext]
  refine ⟨((KeyMemory.store ["t"]).sends_stream (by decide) ["id"] (by simp) rfl (some 0)).map
    keyOf, _, selected?_streamStatement _ "t" ["id"] (by simp) (some 0) _, ?_⟩
  simp [length_firsts, Query.positive]

end KeyStore

end RowStore
