import RowStore.Proofs.Checks
import RowStore.Proofs.ColumnName
import RowStore.Proofs.Sql.Statement
import RowStore.Query.Statement

/-!
# What a server reads of a query

The tokens of each statement are given by the query alone. Table, fields and values come back as
the names and literals they are, so no content of theirs ends a token or adds one.
-/

namespace RowStore

open Sql (Condition Literal Statement Token words commaTokens listTokens pathTokens)

/-! ## Tokens of a query -/

def fieldToken (name : String) : Token := .name (ColumnName.ofField name)

def Value.tokens (v : Value) : List Token := v.literal.tokens

/-- What a filter asks of its column. -/
def Filter.test (f : Filter) : List Token :=
  match f.operand with
  | .missing | .value .null =>
    if f.comparison = .eq then words ["IS", "NULL"] else words ["IS", "NOT", "NULL"]
  | .value v => .comparison f.comparison :: v.tokens
  | .list vs =>
    (if f.comparison = .eq then words ["IN"] else words ["NOT", "IN"]) ++
      listTokens (vs.map Value.tokens)

def Filter.tokens (f : Filter) : List Token := fieldToken f.field :: f.test

def Order.tokens (o : Order) : List Token :=
  [fieldToken o.field, .word (if o.descending then "DESC" else "ASC")]

namespace Query

/-- What can be done with the rows of a query. -/
inductive Use where
  | select
  | count
  | delete
  | update (patch : Record)

def statement (q : Query) : Use → Except Fault (Option Statement)
  | .select => q.toSelect
  | .count => q.toCount
  | .delete => q.toDelete
  | .update patch => q.toUpdate patch

def selectionTokens (q : Query) : List Token :=
  match q.selection with
  | none => [.mark '*']
  | some [] => [.name placeholderColumn]
  | some names => commaTokens (names.map fun name => [fieldToken name])

def predicateTokens (q : Query) : List Token :=
  if q.filters.isEmpty then []
  else words ["WHERE"] ++ [Token.word "AND"].intercalate (q.filters.map Filter.tokens)

def groupTokens (q : Query) : List Token :=
  if q.groups.isEmpty then []
  else words ["GROUP", "BY"] ++ commaTokens (q.groups.map fun name => [fieldToken name])

def orderTokens (q : Query) : List Token :=
  if q.orders.isEmpty then [] else words ["ORDER", "BY"] ++ commaTokens (q.orders.map Order.tokens)

/-- Zero is no limit and no offset. An offset stands behind a limit, the greatest there is if the
query has none. -/
def limitTokens (q : Query) : List Token :=
  let limit := (q.limit.getD 0).toNat
  let offset := (q.offset.getD 0).toNat
  if offset ≠ 0 then
    words ["LIMIT"] ++ [.number (natText (if limit = 0 then 18446744073709551615 else limit))] ++
      words ["OFFSET"] ++ [.number (natText offset)]
  else if limit ≠ 0 then words ["LIMIT"] ++ [.number (natText limit)]
  else []

def patchTokens (patch : Record) : List Token :=
  commaTokens (patch.fields.map fun f => fieldToken f.1 :: .comparison .eq :: f.2.tokens)

def headTokens (q : Query) : Use → List Token
  | .select =>
    words ["SELECT"] ++ (if q.distinct then words ["DISTINCT"] else []) ++ q.selectionTokens ++
      words ["FROM"] ++ pathTokens q.table
  | .count =>
    words ["SELECT", "COUNT"] ++ [.mark '('] ++ [.mark '*'] ++ [.mark ')'] ++ words ["AS"] ++
      [.name countColumn] ++ words ["FROM"] ++ pathTokens q.table
  | .delete => words ["DELETE", "FROM"] ++ pathTokens q.table
  | .update patch => words ["UPDATE"] ++ pathTokens q.table ++ words ["SET"] ++ patchTokens patch

def tailTokens (q : Query) : Use → List Token
  | .select => q.groupTokens ++ q.orderTokens ++ q.limitTokens
  | .count => []
  | .delete => q.orderTokens ++ q.limitTokens
  | .update _ => q.orderTokens ++ q.limitTokens

/-- All tokens of a statement. The filters are the same for every use. -/
def tokens (q : Query) (use : Use) : List Token :=
  q.headTokens use ++ q.predicateTokens ++ q.tailTokens use

end Query

/-! ## Parts of a statement -/

theorem tupleTokens_literals (vs : List Value) :
    Sql.tupleTokens (vs.map Value.literal) = listTokens (vs.map Value.tokens) := by
  rw [Sql.tupleTokens, List.map_map]
  rfl

theorem tokens_nullCondition (comparison : Comparison) (column : String) :
    (if comparison = .eq then Condition.isNull column else .isNotNull column).tokens =
      .name column ::
        (if comparison = .eq then words ["IS", "NULL"] else words ["IS", "NOT", "NULL"]) := by
  split <;> rfl

theorem literals_nullCondition (comparison : Comparison) (column : String) :
    (if comparison = .eq then Condition.isNull column else .isNotNull column).literals = [] := by
  split <;> rfl

theorem Filter.tokens_condition (f : Filter) (c : Condition) (h : f.condition = .ok (some c)) :
    c.tokens = f.tokens ∧ ∀ l ∈ c.literals, l.Readable := by
  unfold Filter.condition at h
  obtain ⟨column, hcolumn, h⟩ := Checks.bind_eq_ok.mp h
  obtain ⟨-, -, rfl⟩ := (ColumnName.ofField?_eq_ok_iff f.field column).mp hcolumn
  obtain ⟨field, comparison, operand⟩ := f
  simp only [Filter.tokens, Filter.test]
  dsimp only at h
  split at h
  case h_1 | h_2 =>
    obtain rfl := Option.some.inj (Checks.pure_eq_ok.mp h)
    rw [tokens_nullCondition, literals_nullCondition]
    exact ⟨rfl, by simp⟩
  case h_3 v hnull _ =>
    obtain rfl := Option.some.inj (Checks.pure_eq_ok.mp h)
    refine ⟨?_, by simpa [Condition.literals] using Sql.readable_literal v⟩
    split
    · rename_i heq
      cases heq
    · rename_i heq
      exact absurd (Operand.value.inj heq) hnull
    · rename_i heq
      cases heq
      rfl
    · rename_i heq
      cases heq
  case h_4 => exact absurd (Checks.pure_eq_ok.mp h) (by simp)
  case h_5 vs _ _ =>
    split at h
    case h_1 =>
      obtain rfl := Option.some.inj (Checks.pure_eq_ok.mp h)
      refine ⟨?_, Sql.readable_of_mem_literals vs⟩
      rw [Condition.tokens, tupleTokens_literals]
      rfl
    case h_2 =>
      obtain rfl := Option.some.inj (Checks.pure_eq_ok.mp h)
      refine ⟨?_, Sql.readable_of_mem_literals vs⟩
      rw [Condition.tokens, tupleTokens_literals]
      rfl
    case h_3 => exact absurd h Checks.throw_ne_ok

namespace Query

variable {q : Query}

theorem conditions_eq_ok {conditions : List Condition} (h : q.conditions = .ok (some conditions)) :
    List.Forall₂ (fun f c => f.condition = .ok (some c)) q.filters conditions := by
  unfold Query.conditions at h
  obtain ⟨found, hfound, h⟩ := Checks.bind_eq_ok.mp h
  have hsome := Checks.mapM_id_eq_some.mp (Checks.pure_eq_ok.mp h)
  rw [Checks.mapM_eq_ok, hsome, List.forall₂_map_right_iff] at hfound
  exact hfound

theorem tokens_conditions {conditions : List Condition}
    (h : q.conditions = .ok (some conditions)) :
    Sql.whereTokens conditions = q.predicateTokens ∧
      ∀ l ∈ conditions.flatMap Condition.literals, l.Readable := by
  have hall := (conditions_eq_ok h).imp fun f c => f.tokens_condition c
  have htokens : q.filters.map Filter.tokens = conditions.map Condition.tokens :=
    Checks.map_eq_map_of_forall₂ (hall.imp fun f c hc => hc.1.symm)
  have hempty : conditions.isEmpty = q.filters.isEmpty := by
    rw [Bool.eq_iff_iff, List.isEmpty_iff, List.isEmpty_iff, ← List.length_eq_zero_iff,
      ← List.length_eq_zero_iff, hall.length_eq]
  refine ⟨by rw [Sql.whereTokens, predicateTokens, hempty, htokens], ?_⟩
  intro l hl
  obtain ⟨c, hc, hl⟩ := List.mem_flatMap.mp hl
  obtain ⟨f, -, hf⟩ := Checks.exists_of_forall₂_right hall c hc
  exact hf.2 l hl

theorem columns_eq_ok {names cols : List String} (h : columns names = .ok cols) :
    cols = names.map ColumnName.ofField := (ColumnName.mapM_ofField?_eq_ok h).1

theorem namesTokens_ofField (names : List String) :
    Sql.namesTokens (names.map ColumnName.ofField) =
      commaTokens (names.map fun name => [fieldToken name]) := by
  rw [Sql.namesTokens, List.map_map]
  rfl

theorem tokens_projection {columns : Option (List String)} (h : q.projection = .ok columns) :
    Sql.columnsTokens columns = q.selectionTokens := by
  unfold Query.projection at h
  unfold selectionTokens
  cases hs : q.selection with
  | none =>
    rw [hs] at h
    obtain rfl := Except.ok.inj h
    rfl
  | some names =>
    rw [hs] at h
    cases names with
    | nil =>
      obtain rfl := Except.ok.inj h
      rfl
    | cons name names =>
      obtain ⟨cols, hcols, rfl⟩ := Checks.map_eq_ok.mp h
      rw [columns_eq_ok hcols]
      exact namesTokens_ofField _

theorem tokens_groups {groups : List String} (h : columns q.groups = .ok groups) :
    Sql.groupTokens groups = q.groupTokens := by
  rw [columns_eq_ok h, Sql.groupTokens, groupTokens, namesTokens_ofField, List.isEmpty_map]

theorem tokens_orderings {orderings : List Sql.Ordering} (h : q.orderings = .ok orderings) :
    Sql.orderTokens orderings = q.orderTokens := by
  have hmap : orderings = q.orders.map fun o => ⟨ColumnName.ofField o.field, o.descending⟩ := by
    refine (Checks.eq_map_of_mapM ?_ h).1
    intro o ordering ho
    obtain ⟨column, hcolumn, ho⟩ := Checks.bind_eq_ok.mp ho
    obtain ⟨-, -, rfl⟩ := (ColumnName.ofField?_eq_ok_iff _ _).mp hcolumn
    exact (Checks.pure_eq_ok.mp ho).symm
  rw [hmap, Sql.orderTokens, orderTokens, List.isEmpty_map, List.map_map]
  rfl

theorem bind_positive (n : Option UInt64) :
    n.bind positive = if n.getD 0 = 0 then none else some (n.getD 0) := by
  cases n <;> rfl

theorem tokens_window (q : Query) : q.window.tokens = q.limitTokens := by
  have hzero : ∀ n : UInt64, n.toNat = 0 ↔ n = 0 := by simp [← UInt64.toNat_inj]
  unfold window limitTokens
  rw [bind_positive, bind_positive]
  by_cases hlimit : q.limit.getD 0 = 0 <;> by_cases hoffset : q.offset.getD 0 = 0 <;>
    simp [hlimit, hoffset, hzero, Sql.Window.tokens, unboundedLimit, UInt64.size]

example : ((ofTable "t").withOffset 5).limitTokens =
    words ["LIMIT"] ++ [.number "18446744073709551615"] ++ words ["OFFSET"] ++ [.number "5"] := by
  decide

theorem changeWindow_eq_ok {w : Sql.Window} (h : q.changeWindow = .ok w) : w = q.window := by
  unfold Query.changeWindow at h
  split at h
  · cases h
  · exact (Except.ok.inj h).symm

theorem assignments_eq_ok {patch : Record} {assignments : List (String × Literal)}
    (h : (patch.fields.mapM fun (name, value) => do
      let column ← ColumnName.ofField? name
      return (column, value.literal)) = .ok assignments) :
    assignments = patch.fields.map (fun f => (ColumnName.ofField f.1, f.2.literal)) ∧
      ∀ name ∈ patch.names, ColumnName.ofField? name = .ok (ColumnName.ofField name) := by
  have hone : ∀ (f : String × Value) (a : String × Literal),
      (do
        let column ← ColumnName.ofField? f.1
        return (column, f.2.literal)) = Except.ok a →
      a = (ColumnName.ofField f.1, f.2.literal) ∧
        ColumnName.ofField? f.1 = .ok (ColumnName.ofField f.1) := by
    intro f a hf
    obtain ⟨column, hcolumn, hf⟩ := Checks.bind_eq_ok.mp hf
    obtain ⟨-, -, rfl⟩ := (ColumnName.ofField?_eq_ok_iff _ _).mp hcolumn
    exact ⟨(Checks.pure_eq_ok.mp hf).symm, hcolumn⟩
  obtain ⟨hmap, hall⟩ := Checks.eq_map_of_mapM (fun f a hf => (hone f a hf).1) h
  refine ⟨hmap, ?_⟩
  intro name hname
  obtain ⟨f, hf, rfl⟩ := List.mem_map.mp hname
  exact (hone f _ (hall f hf)).2

theorem tokens_assignments (patch : Record) :
    commaTokens ((patch.fields.map fun f => (ColumnName.ofField f.1, f.2.literal)).map
      Sql.assignmentTokens) = patchTokens patch := by
  rw [patchTokens, List.map_map]
  rfl

theorem readable_assignments (patch : Record) :
    ∀ a ∈ patch.fields.map fun f => (ColumnName.ofField f.1, f.2.literal), a.2.Readable := by
  intro a ha
  obtain ⟨f, -, rfl⟩ := List.mem_map.mp ha
  exact Sql.readable_literal f.2

/-! ## Statements -/

theorem toSelect_eq_ok {s : Statement} (h : q.toSelect = .ok (some s)) :
    ∃ conditions projection groups orderings, q.conditions = .ok (some conditions) ∧
      q.projection = .ok projection ∧ columns q.groups = .ok groups ∧
      q.orderings = .ok orderings ∧
      s = .select ⟨q.distinct, projection, q.table, conditions, groups, orderings, q.window⟩ := by
  unfold Query.toSelect at h
  obtain ⟨-, -, h⟩ := Checks.bind_eq_ok.mp h
  obtain ⟨found, hconditions, h⟩ := Checks.bind_eq_ok.mp h
  cases found with
  | none => exact absurd (Checks.pure_eq_ok.mp h) (by simp)
  | some conditions =>
    obtain ⟨projection, hprojection, h⟩ := Checks.bind_eq_ok.mp h
    obtain ⟨groups, hgroups, h⟩ := Checks.bind_eq_ok.mp h
    obtain ⟨orderings, horderings, h⟩ := Checks.bind_eq_ok.mp h
    obtain rfl := Option.some.inj (Checks.pure_eq_ok.mp h)
    exact ⟨conditions, projection, groups, orderings, hconditions, hprojection, hgroups,
      horderings, rfl⟩

theorem toCount_eq_ok {s : Statement} (h : q.toCount = .ok (some s)) :
    ∃ conditions, q.conditions = .ok (some conditions) ∧
      s = .count countColumn q.table conditions := by
  unfold Query.toCount at h
  obtain ⟨-, -, h⟩ := Checks.bind_eq_ok.mp h
  obtain ⟨found, hconditions, h⟩ := Checks.bind_eq_ok.mp h
  cases found with
  | none => exact absurd (Checks.pure_eq_ok.mp h) (by simp)
  | some conditions =>
    obtain rfl := Option.some.inj (Checks.pure_eq_ok.mp h)
    exact ⟨conditions, hconditions, rfl⟩

theorem toDelete_eq_ok {s : Statement} (h : q.toDelete = .ok (some s)) :
    ∃ conditions orderings, q.conditions = .ok (some conditions) ∧
      q.orderings = .ok orderings ∧ s = .delete q.table conditions orderings q.window := by
  unfold Query.toDelete at h
  obtain ⟨-, -, h⟩ := Checks.bind_eq_ok.mp h
  obtain ⟨found, hconditions, h⟩ := Checks.bind_eq_ok.mp h
  cases found with
  | none => exact absurd (Checks.pure_eq_ok.mp h) (by simp)
  | some conditions =>
    obtain ⟨orderings, horderings, h⟩ := Checks.bind_eq_ok.mp h
    obtain ⟨window, hwindow, h⟩ := Checks.bind_eq_ok.mp h
    obtain rfl := changeWindow_eq_ok hwindow
    obtain rfl := Option.some.inj (Checks.pure_eq_ok.mp h)
    exact ⟨conditions, orderings, hconditions, horderings, rfl⟩

theorem toUpdate_eq_ok {patch : Record} {s : Statement} (h : q.toUpdate patch = .ok (some s)) :
    ∃ assignments conditions orderings, (patch.fields.mapM fun (name, value) => do
        let column ← ColumnName.ofField? name
        return (column, value.literal)) = .ok assignments ∧
      q.conditions = .ok (some conditions) ∧ q.orderings = .ok orderings ∧
      s = .update q.table assignments conditions orderings q.window := by
  unfold Query.toUpdate at h
  obtain ⟨-, -, h⟩ := Checks.bind_eq_ok.mp h
  split at h
  · obtain ⟨_, hthrow, -⟩ := Checks.bind_eq_ok.mp h
    exact absurd hthrow Checks.throw_ne_ok
  · obtain ⟨-, -, h⟩ := Checks.bind_eq_ok.mp h
    obtain ⟨assignments, hassignments, h⟩ := Checks.bind_eq_ok.mp h
    obtain ⟨found, hconditions, h⟩ := Checks.bind_eq_ok.mp h
    cases found with
    | none => exact absurd (Checks.pure_eq_ok.mp h) (by simp)
    | some conditions =>
      obtain ⟨orderings, horderings, h⟩ := Checks.bind_eq_ok.mp h
      obtain ⟨window, hwindow, h⟩ := Checks.bind_eq_ok.mp h
      obtain rfl := changeWindow_eq_ok hwindow
      obtain rfl := Option.some.inj (Checks.pure_eq_ok.mp h)
      exact ⟨assignments, conditions, orderings, hassignments, hconditions, horderings, rfl⟩

theorem tokens_statement {use : Use} {s : Statement} (h : q.statement use = .ok (some s)) :
    s.tokens = q.tokens use ∧ ∀ l ∈ s.literals, l.Readable := by
  cases use with
  | select =>
    obtain ⟨conditions, projection, groups, orderings, hc, hp, hg, ho, rfl⟩ := toSelect_eq_ok h
    obtain ⟨hwhere, hreadable⟩ := tokens_conditions hc
    refine ⟨?_, hreadable⟩
    simp only [Statement.tokens, tokens, headTokens, tailTokens, hwhere, tokens_projection hp,
      tokens_groups hg, tokens_orderings ho, tokens_window, Sql.distinctTokens, List.append_assoc]
  | count =>
    obtain ⟨conditions, hc, rfl⟩ := toCount_eq_ok h
    obtain ⟨hwhere, hreadable⟩ := tokens_conditions hc
    refine ⟨?_, hreadable⟩
    simp [Statement.tokens, tokens, headTokens, tailTokens, hwhere, Sql.countTokens, words]
  | delete =>
    obtain ⟨conditions, orderings, hc, ho, rfl⟩ := toDelete_eq_ok h
    obtain ⟨hwhere, hreadable⟩ := tokens_conditions hc
    refine ⟨?_, hreadable⟩
    simp only [Statement.tokens, tokens, headTokens, tailTokens, hwhere, tokens_orderings ho,
      tokens_window, List.append_assoc]
  | update patch =>
    obtain ⟨assignments, conditions, orderings, ha, hc, ho, rfl⟩ := toUpdate_eq_ok h
    obtain ⟨hwhere, hreadable⟩ := tokens_conditions hc
    obtain ⟨rfl, -⟩ := assignments_eq_ok ha
    constructor
    · simp only [Statement.tokens, tokens, headTokens, tailTokens, hwhere,
        tokens_assignments patch, tokens_orderings ho, tokens_window, List.append_assoc]
    · intro l hl
      rcases List.mem_append.mp hl with hl | hl
      · obtain ⟨a, ha, rfl⟩ := List.mem_map.mp hl
        exact readable_assignments patch a ha
      · exact hreadable l hl

/-- A server reads the text of a statement as the tokens of the query, and as nothing else. -/
theorem tokenize_statement (q : Query) (use : Use) (s : Statement)
    (h : q.statement use = .ok (some s)) : Sql.tokenize s.text.toList = some (q.tokens use) := by
  obtain ⟨htokens, hreadable⟩ := tokens_statement h
  rw [← htokens]
  exact (s.reads_text hreadable).tokenize_eq

/-- A query on a table with an accent in its name, for a value that looks like SQL. -/
def hostile : Query := (ofTable "app.us`ers").filterEq "a.b" (.value (.text "' OR 1=1 -- "))

theorem tokenize_hostile :
    ∃ s, hostile.statement .delete = .ok (some s) ∧
      Sql.tokenize s.text.toList = some [.word "DELETE", .word "FROM", .name "app", .mark '.',
        .name "us`ers", .word "WHERE", .name "a_dot_b", .comparison .eq,
        .string "' OR 1=1 -- "] := by
  have h : hostile.statement .delete = .ok (some (.delete "app.us`ers"
      [.compare "a_dot_b" .eq (.string "' OR 1=1 -- ")] [] .all)) := rfl
  refine ⟨_, h, ?_⟩
  rw [tokenize_statement hostile .delete _ h]
  rfl

end Query

end RowStore
