import RowStore.Proofs.Keys.Table
import RowStore.Proofs.Query.Membership
import RowStore.Proofs.Store.Saving
import RowStore.Proofs.Store.Streaming

/-!
# Statements of a key-value store

Each operation of a key-value store puts statements that an executor with a table of keys can carry
out, whatever the keys hold.
-/

namespace RowStore

open RowStore.Sql (Condition pathNames)

/-! ## Queries on a table of keys -/

theorem ofField?_id : ColumnName.ofField? "id" = .ok "id" := rfl

theorem literals_text (ids : List String) :
    (ids.map Value.text).map Value.literal = ids.map Sql.Literal.string := by
  simp [Value.literal]

section

variable {table : String} (htable : Text.blankOnly table = false)
include htable

theorem checkedTable_eq : Store.checkedTable table = .ok (Sql.quotePath table) :=
  if_neg (by simp [htable])

theorem toCount_ofTable :
    (Query.ofTable table).toCount = .ok (some (.count Query.countColumn table [])) := by
  have hcheck : (Query.ofTable table).checkTable = .ok () :=
    if_neg (by simp [Query.ofTable, htable])
  unfold Query.toCount
  rw [hcheck]
  rfl

theorem toSelect_columns (columns : List String) (hne : columns ≠ [])
    (hcolumns : Query.columns columns = .ok columns) (limit : Option UInt64)
    (hlimit : limit ≠ some 0) :
    (((Query.ofTable table).select columns).withLimit (limit.getD 0)).toSelect =
      .ok (some (.select ⟨false, some columns, table, [], [], [],
        KeyCommand.window (limit.map UInt64.toNat)⟩)) := by
  obtain ⟨name, names, rfl⟩ := List.exists_cons_of_ne_nil hne
  have hcheck : (((Query.ofTable table).select (name :: names)).withLimit
      (limit.getD 0)).checkTable = .ok () :=
    if_neg (by simp [Query.ofTable, Query.select, Query.withLimit, htable])
  have hprojection : (((Query.ofTable table).select (name :: names)).withLimit
      (limit.getD 0)).projection = .ok (some (name :: names)) := by
    change some <$> Query.columns (name :: names) = _
    rw [hcolumns]
    rfl
  have hwindow : (((Query.ofTable table).select (name :: names)).withLimit
      (limit.getD 0)).window = KeyCommand.window (limit.map UInt64.toNat) := by
    cases limit with
    | none => rfl
    | some n =>
      have hn : n ≠ 0 := fun h => hlimit (by rw [h])
      simp [Query.window, Query.withLimit, Query.positive, Query.select, Query.ofTable, hn,
        KeyCommand.window]
  unfold Query.toSelect
  rw [hcheck, hprojection, hwindow]
  rfl

theorem toSelect_ids (id : String) (ids : List String) :
    ((Query.ofIds table (id :: ids)).select ["id", "v"]).toSelect =
      .ok (some (.select ⟨false, some ["id", "v"], table,
        [.among "id" ((id :: ids).map .string)], [], [], KeyCommand.window none⟩)) := by
  have hall := toSelect_columns htable ["id", "v"] (by simp) rfl none (by simp)
  have hids := Query.toSelect_filter (Query.condition_among (.text id) (ids.map .text)
    ofField?_id) hall
  rw [← List.map_cons, literals_text] at hids
  exact hids

theorem toDelete_ofTable :
    (Query.ofTable table).toDelete = .ok (some (.delete table [] [] .all)) := by
  have hcheck : (Query.ofTable table).checkTable = .ok () :=
    if_neg (by simp [Query.ofTable, htable])
  unfold Query.toDelete
  rw [hcheck]
  rfl

theorem toDelete_nil : (Query.ofIds table []).toDelete = .ok none :=
  Query.toDelete_filter (Query.condition_empty .eq ofField?_id) (toDelete_ofTable htable)

theorem toDelete_ids (id : String) (ids : List String) :
    (Query.ofIds table (id :: ids)).toDelete =
      .ok (some (.delete table [.among "id" ((id :: ids).map .string)] [] .all)) := by
  have hids := Query.toDelete_filter (Query.condition_among (.text id) (ids.map .text)
    ofField?_id) (toDelete_ofTable htable)
  rw [← List.map_cons, literals_text] at hids
  exact hids

end

/-! ## What a server reads of them -/

theorem readable_ids (ids : List String) :
    ∀ l ∈ [Condition.among "id" (ids.map .string)].flatMap Condition.literals, l.Readable := by
  intro l hl
  simp only [List.flatMap_singleton, Condition.literals, List.mem_map] at hl
  obtain ⟨id, -, rfl⟩ := hl
  trivial

theorem hasOptions_ids (id : String) (ids : List String) :
    ∀ c ∈ [Condition.among "id" ((id :: ids).map .string)], c.HasOptions := by
  intro c hc
  rw [List.mem_singleton] at hc
  subst hc
  exact List.cons_ne_nil _ _

theorem known_ids (columns : List String) (hcolumns : ∀ c ∈ columns, c ∈ ["id", "v"])
    (ids : List String) (limit : Option Nat) :
    (KeyCommand.select columns [.among "id" (ids.map .string)] limit).Known := by
  intro column h
  rcases List.mem_append.mp h with h | h
  · exact hcolumns column h
  · obtain rfl : column = "id" := by simpa [Condition.column] using h
    simp

/-! ## Questions to an executor with a table of keys -/

namespace Store

theorem toNat_toUInt64 (n : Int64) (h : 0 ≤ n.toInt) : (n.toUInt64.toNat : Int) = n.toInt := by
  have hint : n.toInt = n.toBitVec.toInt := rfl
  have hword : n.toUInt64.toNat = n.toBitVec.toNat := rfl
  have hcond := BitVec.toInt_eq_toNat_cond n.toBitVec
  have hlt := n.toBitVec.isLt
  rw [hint] at h ⊢
  rw [hword]
  split at hcond <;> omega

theorem countOf_int (n : Int64) (h : 0 ≤ n.toInt) :
    countOf (.ofRows [Query.countColumn] [[some (.int n)]]) = .ok n.toUInt64 := if_pos h

variable {σ : Type} (db : Store σ) {path : List String} {view : σ → Option KeyTable}
variable (serves : ServesKeys db.executor path view)
include serves

theorem execute_serves {sql : String} {params : List Value} {command : KeyCommand}
    {after : Option KeyTable} (read : KeyCommand.read sql params = some (path, command))
    (known : command.Known) (s : Session σ)
    (carried : command.carryOut (view s.server) = some after) :
    ∃ outcome s', db.execute sql params s = (.ok outcome, s') ∧ view s'.server = after ∧
      ∀ conditions t, command = .delete conditions → view s.server = some t →
        outcome.affected = UInt64.ofNat (t.entries.filter (KeyEntry.passes conditions)).length := by
  obtain ⟨journal, run⟩ := db.execute_apply sql params s
  obtain ⟨outcome, server', answer, there, affected⟩ := serves.execute read known carried
  rw [answer] at run
  exact ⟨outcome, _, run, there, affected⟩

variable {q : Query} {statement : Sql.Statement} {command : KeyCommand} {t : KeyTable}

theorem records_serves (h : q.toSelect = .ok (some statement)) (shown : q.selectsNothing = false)
    (read : KeyCommand.read statement.text [] = some (path, command)) (known : command.Known)
    (s : Session σ) (there : view s.server = some t)
    (found : ∃ columns rows, command.Finds t columns rows) :
    ∃ columns rows s', command.Finds t columns rows ∧
      db.records q s = (.ok (rows.map (ResultRow.recordOfCells columns)), s') ∧
      view s'.server = some t := by
  obtain ⟨journal, run⟩ := db.records_apply h s
  obtain ⟨columns, rows, server', finds, answer, kept⟩ := serves.select read known there found
  have records : (ResultSet.ofRows columns rows).toRecords =
      rows.map (ResultRow.recordOfCells columns) := by
    simp [ResultSet.toRecords, ResultSet.ofRows, ResultRow.toRecord, ResultRow.ofCells]
  have all : q.shown (rows.map (ResultRow.recordOfCells columns)) =
      rows.map (ResultRow.recordOfCells columns) := by
    simp [Query.shown, shown]
  rw [answer] at run
  refine ⟨columns, rows, ⟨server', journal⟩, finds, run.trans ?_, kept⟩
  change (Except.ok (q.shown (ResultSet.ofRows columns rows).toRecords), _) = _
  rw [records, all]

theorem stream_serves (h : q.toSelect = .ok (some statement)) (shown : q.selectsNothing = false)
    (read : KeyCommand.read statement.text [] = some (path, command)) (known : command.Known)
    (s : Session σ) (there : view s.server = some t)
    (found : ∃ columns rows, command.Finds t columns rows) :
    ∃ request s' columns rows begun later, db.stream q s = (.ok request, s') ∧
      command.Finds t columns rows ∧ request.begin s'.server = (begun, later) ∧
      view later = some t ∧ begun.pump.Free ∧
      Stream.gather begun.finish begun.pump.upcoming =
        .ok (rows.map (ResultRow.recordOfCells columns)) := by
  obtain ⟨journal, run⟩ := db.stream_apply h s
  obtain ⟨request, server', asked, kept, begins⟩ := serves.stream read known
  obtain ⟨columns, rows, begun, later, finds, begin', view', free, worth⟩ :=
    begins server' t (kept.trans there) found
  have same : q.shownStream request = request := by simp [Query.shownStream, shown]
  rw [asked, same] at run
  exact ⟨request, _, columns, rows, begun, later, run, finds, begin', view', free, worth⟩

theorem count_serves {conditions : List Condition} (h : q.toCount = .ok (some statement))
    (read : KeyCommand.read statement.text [] =
      some (path, .count Query.countColumn conditions))
    (known : (KeyCommand.count Query.countColumn conditions).Known) (s : Session σ)
    (there : view s.server = some t)
    (small : (t.entries.filter (KeyEntry.passes conditions)).length < 2 ^ 63) :
    ∃ n s', db.count q s = (.ok n, s') ∧
      n.toNat = (t.entries.filter (KeyEntry.passes conditions)).length ∧
      view s'.server = some t := by
  obtain ⟨journal, run⟩ := db.select_apply statement.text s
  obtain ⟨columns, rows, server', finds, answer, kept⟩ := serves.select read known there
    ⟨_, _, rfl, Int64.ofNat _, rfl, Int64.toInt_ofNat_of_lt small⟩
  obtain ⟨rfl, n, rfl, size⟩ := finds
  have positive : 0 ≤ n.toInt := by rw [size]; exact Int.natCast_nonneg _
  refine ⟨n.toUInt64, ⟨server', journal⟩, ?_, ?_, kept⟩
  · rw [answer] at run
    unfold count
    rw [Work.bind_ofExcept_ok _ h]
    simp only [Work.bind_apply, run]
    rw [countOf_int n positive]
    rfl
  · have word := toNat_toUInt64 n positive
    omega

end Store

end RowStore
