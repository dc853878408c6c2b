import RowStore.Proofs.Query.Tokens
import RowStore.Proofs.Sql.Truth

/-!
# Filters on a list

A filter on a list asks whether a cell equals one of the values, or none of them. NULL among the
values keeps a row from being known to equal none of them, and a query with an empty list has no
statement at all.
-/

namespace RowStore

open Sql (Condition Literal Statement)

/-! ## One filter more -/

/-- A statement on the rows that pass a condition as well. -/
def Sql.Statement.restrict (c : Condition) : Statement → Statement
  | .select s => .select { s with conditions := s.conditions ++ [c] }
  | .count column table conditions => .count column table (conditions ++ [c])
  | .delete table conditions orderings window => .delete table (conditions ++ [c]) orderings window
  | .update table assignments conditions orderings window =>
    .update table assignments (conditions ++ [c]) orderings window

theorem Sql.Statement.conditions_restrict (c : Condition) (s : Statement) :
    (s.restrict c).conditions = s.conditions ++ [c] := by
  cases s <;> rfl

theorem Filter.condition_cases (f : Filter) (c : Condition) (h : f.condition = .ok (some c)) :
    (f.operand.isNull = true ∧ c = if f.comparison = .eq then .isNull (ColumnName.ofField f.field)
      else .isNotNull (ColumnName.ofField f.field)) ∨
    (∃ v, f.operand = .value v ∧ v.isNull = false ∧
      c = .compare (ColumnName.ofField f.field) f.comparison v.literal) ∨
    ∃ vs, f.operand = .list vs ∧ vs ≠ [] ∧
      (f.comparison = .eq ∧ c = .among (ColumnName.ofField f.field) (vs.map Value.literal) ∨
        f.comparison = .ne ∧ c = .notAmong (ColumnName.ofField f.field) (vs.map Value.literal)) := by
  unfold Filter.condition at h
  obtain ⟨column, hcolumn, h⟩ := Checks.bind_eq_ok.mp h
  obtain ⟨-, -, rfl⟩ := (ColumnName.ofField?_eq_ok_iff f.field column).mp hcolumn
  split at h
  case h_1 | h_2 =>
    rename_i hoperand
    rw [hoperand]
    exact Or.inl ⟨rfl, (Option.some.inj (Checks.pure_eq_ok.mp h)).symm⟩
  case h_3 v hnull hoperand =>
    have hvalue : v.isNull = false := by
      cases v with
      | null => exact absurd rfl hnull
      | _ => rfl
    exact Or.inr (Or.inl ⟨v, hoperand, hvalue,
      (Option.some.inj (Checks.pure_eq_ok.mp h)).symm⟩)
  case h_4 => exact absurd (Checks.pure_eq_ok.mp h) (by simp)
  case h_5 vs hne hoperand =>
    refine Or.inr (Or.inr ⟨vs, hoperand, by simpa using hne, ?_⟩)
    split at h
    case h_1 heq => exact Or.inl ⟨heq, (Option.some.inj (Checks.pure_eq_ok.mp h)).symm⟩
    case h_2 hne => exact Or.inr ⟨hne, (Option.some.inj (Checks.pure_eq_ok.mp h)).symm⟩
    case h_3 => exact absurd h Checks.throw_ne_ok

namespace Query

section

variable {q : Query} {field : String} {comparison : Comparison} {operand : Operand}
variable {found : Option Condition} {compiled : Option Statement}
variable (hfound : (Filter.mk field comparison operand).condition = .ok found)
include hfound

theorem conditions_filter {conditions : Option (List Condition)}
    (h : q.conditions = .ok conditions) :
    (q.filter field comparison operand).conditions =
      .ok (conditions.bind fun cs => found.map fun c => cs ++ [c]) := by
  unfold Query.conditions at h ⊢
  obtain ⟨all, hall, h⟩ := Checks.bind_eq_ok.mp h
  obtain rfl := Checks.pure_eq_ok.mp h
  have happend : (q.filter field comparison operand).filters.mapM Filter.condition =
      .ok (all ++ [found]) := by
    unfold Query.filter
    rw [List.mapM_append, hall, List.mapM_cons, hfound]
    rfl
  rw [happend, Checks.ok_bind, List.mapM_append]
  cases all.mapM id <;> cases found <;> rfl

/-- One step for the four kinds of statement, each with what it does with the conditions. -/
theorem bind_conditions_filter {make : Option (List Condition) → Except Fault (Option Statement)}
    (h : q.conditions >>= make = .ok compiled) (hnone : make none = .ok none)
    (hsome : ∀ cs c s, make (some cs) = .ok s →
      make (some (cs ++ [c])) = .ok (s.map (Statement.restrict c))) :
    (q.filter field comparison operand).conditions >>= make =
      .ok (compiled.bind fun s => found.map s.restrict) := by
  obtain ⟨conditions, hconditions, h⟩ := Checks.bind_eq_ok.mp h
  rw [conditions_filter hfound hconditions, Checks.ok_bind]
  cases conditions with
  | none =>
    rw [hnone, Except.ok.injEq] at h
    subst h
    exact hnone
  | some cs =>
    cases found with
    | none => cases compiled <;> exact hnone
    | some c =>
      refine (hsome cs c compiled h).trans ?_
      cases compiled <;> rfl

theorem toCount_filter (h : q.toCount = .ok compiled) :
    (q.filter field comparison operand).toCount =
      .ok (compiled.bind fun s => found.map s.restrict) := by
  unfold Query.toCount at h ⊢
  obtain ⟨_, htable, h⟩ := Checks.bind_eq_ok.mp h
  rw [show (q.filter field comparison operand).checkTable = _ from htable]
  refine bind_conditions_filter hfound h rfl fun cs c s hs => ?_
  obtain rfl := Checks.pure_eq_ok.mp hs
  rfl

theorem toSelect_filter (h : q.toSelect = .ok compiled) :
    (q.filter field comparison operand).toSelect =
      .ok (compiled.bind fun s => found.map s.restrict) := by
  unfold Query.toSelect at h ⊢
  obtain ⟨_, htable, h⟩ := Checks.bind_eq_ok.mp h
  rw [show (q.filter field comparison operand).checkTable = _ from htable]
  refine bind_conditions_filter hfound h rfl fun cs c s hs => ?_
  obtain ⟨projection, hprojection, hs⟩ := Checks.bind_eq_ok.mp hs
  obtain ⟨groups, hgroups, hs⟩ := Checks.bind_eq_ok.mp hs
  obtain ⟨orderings, horderings, hs⟩ := Checks.bind_eq_ok.mp hs
  obtain rfl := Checks.pure_eq_ok.mp hs
  rw [hprojection, hgroups, horderings]
  rfl

theorem toDelete_filter (h : q.toDelete = .ok compiled) :
    (q.filter field comparison operand).toDelete =
      .ok (compiled.bind fun s => found.map s.restrict) := by
  unfold Query.toDelete at h ⊢
  obtain ⟨_, htable, h⟩ := Checks.bind_eq_ok.mp h
  rw [show (q.filter field comparison operand).checkTable = _ from htable]
  refine bind_conditions_filter hfound h rfl fun cs c s hs => ?_
  obtain ⟨orderings, horderings, hs⟩ := Checks.bind_eq_ok.mp hs
  obtain ⟨window, hwindow, hs⟩ := Checks.bind_eq_ok.mp hs
  obtain rfl := Checks.pure_eq_ok.mp hs
  rw [horderings, hwindow]
  rfl

theorem toUpdate_filter {patch : Record} (h : q.toUpdate patch = .ok compiled) :
    (q.filter field comparison operand).toUpdate patch =
      .ok (compiled.bind fun s => found.map s.restrict) := by
  unfold Query.toUpdate at h ⊢
  obtain ⟨_, htable, h⟩ := Checks.bind_eq_ok.mp h
  rw [show (q.filter field comparison operand).checkTable = _ from htable]
  split at h
  · obtain ⟨_, hthrow, -⟩ := Checks.bind_eq_ok.mp h
    exact absurd hthrow Checks.throw_ne_ok
  rename_i hpatch
  obtain ⟨assignments, hassignments, h⟩ := Checks.bind_eq_ok.mp h
  rw [if_neg hpatch, hassignments]
  refine bind_conditions_filter hfound h rfl fun cs c s hs => ?_
  obtain ⟨orderings, horderings, hs⟩ := Checks.bind_eq_ok.mp hs
  obtain ⟨window, hwindow, hs⟩ := Checks.bind_eq_ok.mp hs
  obtain rfl := Checks.pure_eq_ok.mp hs
  rw [horderings, hwindow]
  rfl

theorem statement_filter {use : Use} (h : q.statement use = .ok compiled) :
    (q.filter field comparison operand).statement use =
      .ok (compiled.bind fun s => found.map s.restrict) := by
  cases use with
  | select => exact toSelect_filter hfound h
  | count => exact toCount_filter hfound h
  | delete => exact toDelete_filter hfound h
  | update patch => exact toUpdate_filter hfound h

end

/-! ## Selected rows -/

theorem conditions_statement {q : Query} {use : Use} {s : Statement}
    (h : q.statement use = .ok (some s)) : q.conditions = .ok (some s.conditions) := by
  cases use with
  | select =>
    obtain ⟨conditions, _, _, _, hc, -, -, -, rfl⟩ := toSelect_eq_ok h
    exact hc
  | count =>
    obtain ⟨conditions, hc, rfl⟩ := toCount_eq_ok h
    exact hc
  | delete =>
    obtain ⟨conditions, _, hc, -, rfl⟩ := toDelete_eq_ok h
    exact hc
  | update patch =>
    obtain ⟨_, conditions, _, -, hc, -, rfl⟩ := toUpdate_eq_ok h
    exact hc

theorem hasOptions_condition (f : Filter) (c : Condition) (h : f.condition = .ok (some c)) :
    c.HasOptions := by
  rcases f.condition_cases c h with ⟨-, rfl⟩ | ⟨v, -, -, rfl⟩ | ⟨vs, -, hvs, ⟨-, rfl⟩ | ⟨-, rfl⟩⟩
  · split <;> trivial
  · trivial
  · exact mt List.map_eq_nil_iff.mp hvs
  · exact mt List.map_eq_nil_iff.mp hvs

theorem hasOptions_statement {q : Query} {use : Use} {s : Statement}
    (h : q.statement use = .ok (some s)) : ∀ c ∈ s.conditions, c.HasOptions := by
  intro c hc
  obtain ⟨f, -, hf⟩ :=
    Checks.exists_of_forall₂_right (conditions_eq_ok (conditions_statement h)) c hc
  exact hasOptions_condition f c hf

variable {ν : Type} (holds : ν → Comparison → Literal → Bool) (row : String → Option ν)

/-- True when the query has a statement and the text of that is true of the row. -/
def Selects (q : Query) (use : Use) : Prop :=
  ∃ s, q.statement use = .ok (some s) ∧ Sql.textTruth holds row s.text = some (some true)

variable {holds row} {q : Query} {use : Use}

theorem selects_iff {compiled : Option Statement} (h : q.statement use = .ok compiled) :
    q.Selects holds row use ↔
      ∃ s, compiled = some s ∧ ∀ c ∈ s.conditions, c.truth holds row = some true := by
  have htext : ∀ s, q.statement use = .ok (some s) →
      (Sql.textTruth holds row s.text = some (some true) ↔
        ∀ c ∈ s.conditions, c.truth holds row = some true) := by
    intro s hs
    rw [s.textTruth_text row (tokens_statement hs).2 (hasOptions_statement hs), Option.some_inj,
      Sql.whereTruth_eq_true]
  constructor
  · rintro ⟨s, hs, htrue⟩
    rw [h, Except.ok.injEq] at hs
    exact ⟨s, hs, (htext s (by rw [h, hs])).mp htrue⟩
  · rintro ⟨s, rfl, htrue⟩
    exact ⟨s, h, (htext s h).mpr htrue⟩

theorem selects_filter {field : String} {comparison : Comparison} {operand : Operand}
    {found : Option Condition} {compiled : Option Statement}
    (hfound : (Filter.mk field comparison operand).condition = .ok found)
    (h : q.statement use = .ok compiled) :
    (q.filter field comparison operand).Selects holds row use ↔
      q.Selects holds row use ∧ ∃ c, found = some c ∧ c.truth holds row = some true := by
  rw [selects_iff (statement_filter hfound h), selects_iff h]
  constructor
  · rintro ⟨s', hs', htrue⟩
    obtain ⟨s, rfl, hs'⟩ := Option.bind_eq_some_iff.mp hs'
    obtain ⟨c, rfl, rfl⟩ := Option.map_eq_some_iff.mp hs'
    rw [s.conditions_restrict, List.forall_mem_append, List.forall_mem_singleton] at htrue
    exact ⟨⟨s, rfl, htrue.1⟩, c, rfl, htrue.2⟩
  · rintro ⟨⟨s, rfl, hs⟩, c, rfl, hc⟩
    refine ⟨s.restrict c, rfl, ?_⟩
    rw [s.conditions_restrict, List.forall_mem_append, List.forall_mem_singleton]
    exact ⟨hs, hc⟩

/-! ## Lists -/

variable {field column : String}

theorem condition_empty (comparison : Comparison) (h : ColumnName.ofField? field = .ok column) :
    (Filter.mk field comparison (.list [])).condition = .ok none := by
  unfold Filter.condition
  rw [h]
  rfl

theorem condition_among (v : Value) (vs : List Value) (h : ColumnName.ofField? field = .ok column) :
    (Filter.mk field .eq (.list (v :: vs))).condition =
      .ok (some (.among column ((v :: vs).map Value.literal))) := by
  unfold Filter.condition
  rw [h]
  rfl

theorem condition_notAmong (v : Value) (vs : List Value)
    (h : ColumnName.ofField? field = .ok column) :
    (Filter.mk field .ne (.list (v :: vs))).condition =
      .ok (some (.notAmong column ((v :: vs).map Value.literal))) := by
  unfold Filter.condition
  rw [h]
  rfl

theorem condition_list (vs : List Value) (h : ColumnName.ofField? field = .ok column) :
    ∀ comparison ∈ [Comparison.eq, .ne],
      ∃ found, (Filter.mk field comparison (.list vs)).condition = .ok found := by
  intro comparison hcomparison
  simp only [List.mem_cons, List.not_mem_nil, or_false] at hcomparison
  cases vs with
  | nil => exact ⟨none, condition_empty comparison h⟩
  | cons v vs =>
    rcases hcomparison with rfl | rfl
    · exact ⟨_, condition_among v vs h⟩
    · exact ⟨_, condition_notAmong v vs h⟩

/-- True when the value in a cell is known to equal `v`. Nothing is known to equal NULL. -/
def EqualsCell (holds : ν → Comparison → Literal → Bool) (cell : ν) (v : Value) : Prop :=
  v.literal ≠ .null ∧ holds cell .eq v.literal = true

section

variable {cell : ν} (hcell : row column = some cell)
include hcell

theorem among_iff (vs : List Value) :
    (Condition.among column (vs.map Value.literal)).truth holds row = some true ↔
      ∃ v ∈ vs, EqualsCell holds cell v := by
  rw [Condition.truth, hcell, Sql.memberTruth_eq_true]
  simp [Sql.compareTruth_eq_some, EqualsCell]

theorem notAmong_iff (vs : List Value) :
    (Condition.notAmong column (vs.map Value.literal)).truth holds row = some true ↔
      ∀ v ∈ vs, v.literal ≠ .null ∧ ¬ EqualsCell holds cell v := by
  rw [Condition.truth, hcell, Sql.Truth.not_eq_true, Sql.memberTruth_eq_false, List.forall_mem_map]
  refine forall₂_congr fun v _ => ?_
  rw [Sql.compareTruth_eq_some, EqualsCell, not_and, Bool.not_eq_true]
  constructor
  · rintro ⟨hnull, hfalse⟩
    exact ⟨hnull, fun _ => hfalse⟩
  · rintro ⟨hnull, hfalse⟩
    exact ⟨hnull, hfalse hnull⟩

theorem selects_list_eq {compiled : Option Statement} (h : q.statement use = .ok compiled)
    (hcolumn : ColumnName.ofField? field = .ok column) (vs : List Value) :
    (q.filter field .eq (.list vs)).Selects holds row use ↔
      q.Selects holds row use ∧ ∃ v ∈ vs, EqualsCell holds cell v := by
  cases vs with
  | nil => simp [selects_filter (condition_empty .eq hcolumn) h]
  | cons v vs =>
    rw [selects_filter (condition_among v vs hcolumn) h, ← among_iff hcell]
    simp

theorem selects_list_ne {compiled : Option Statement} (h : q.statement use = .ok compiled)
    (hcolumn : ColumnName.ofField? field = .ok column) (vs : List Value) :
    (q.filter field .ne (.list vs)).Selects holds row use ↔
      q.Selects holds row use ∧ vs ≠ [] ∧
        ∀ v ∈ vs, v.literal ≠ .null ∧ ¬ EqualsCell holds cell v := by
  cases vs with
  | nil => simp [selects_filter (condition_empty .ne hcolumn) h]
  | cons v vs =>
    rw [selects_filter (condition_notAmong v vs hcolumn) h, ← notAmong_iff hcell]
    simp

end

/-- A list that a row has to be in is compared as a set of values. So is a list that a row must not
be in, if it is not empty and has no NULL. -/
theorem selects_list (q : Query) (use : Use) (compiled : Option Statement)
    (h : q.statement use = .ok compiled) (field column : String)
    (hcolumn : ColumnName.ofField? field = .ok column) (vs : List Value) :
    ((q.filter field .ne (.list [])).statement use = .ok none ∧
      ∀ comparison ∈ [Comparison.eq, .ne],
        ∃ compiled', (q.filter field comparison (.list vs)).statement use = .ok compiled') ∧
    ∀ (ν : Type) (holds : ν → Comparison → Literal → Bool) (row : String → Option ν) (cell : ν),
      row column = some cell →
      ((q.filter field .eq (.list vs)).Selects holds row use ↔
        q.Selects holds row use ∧ ∃ v ∈ vs, EqualsCell holds cell v) ∧
      ((q.filter field .ne (.list vs)).Selects holds row use →
        q.Selects holds row use ∧ ∀ v ∈ vs, ¬ EqualsCell holds cell v) ∧
      (vs ≠ [] → (∀ v ∈ vs, v.literal ≠ .null) →
        ((q.filter field .ne (.list vs)).Selects holds row use ↔
          q.Selects holds row use ∧ ∀ v ∈ vs, ¬ EqualsCell holds cell v)) := by
  refine ⟨⟨?_, ?_⟩, ?_⟩
  · rw [statement_filter (condition_empty .ne hcolumn) h]
    cases compiled <;> rfl
  · intro comparison hcomparison
    obtain ⟨found, hfound⟩ := condition_list vs hcolumn comparison hcomparison
    exact ⟨_, statement_filter hfound h⟩
  intro ν holds row cell hcell
  have hne : (q.filter field .ne (.list vs)).Selects holds row use ↔ _ :=
    selects_list_ne hcell h hcolumn vs
  refine ⟨selects_list_eq hcell h hcolumn vs, ?_, ?_⟩
  · intro hselects
    obtain ⟨hq, -, hall⟩ := hne.mp hselects
    exact ⟨hq, fun v hv => (hall v hv).2⟩
  · intro hvs hnull
    rw [hne]
    constructor
    · rintro ⟨hq, -, hall⟩
      exact ⟨hq, fun v hv => (hall v hv).2⟩
    · rintro ⟨hq, hall⟩
      exact ⟨hq, hvs, fun v hv => ⟨hnull v hv, hall v hv⟩⟩

theorem selects_list_repeated :
    ((ofTable "t").filter "a.b" .eq (.list [.int 1, .int 2, .int 1])).Selects Sql.holdsExactly
        (fun _ => some (.number "2")) .select ∧
      ((ofTable "t").filter "a.b" .ne (.list [.int 1, .int 2, .int 1])).Selects Sql.holdsExactly
        (fun _ => some (.number "3")) .select := by
  have hcompiled : (ofTable "t").statement .select =
      .ok (some (.select ⟨false, none, "t", [], [], [], .all⟩)) := rfl
  have hall : ∀ row : String → Option Literal,
      (ofTable "t").Selects Sql.holdsExactly row .select := fun row =>
    (selects_iff hcompiled).mpr ⟨_, rfl, by simp [Statement.conditions]⟩
  obtain ⟨-, h⟩ := selects_list (ofTable "t") .select _ hcompiled "a.b" "a_dot_b" rfl
    [.int 1, .int 2, .int 1]
  have htwo := h Literal Sql.holdsExactly (fun _ => some (.number "2")) (.number "2") rfl
  have hthree := h Literal Sql.holdsExactly (fun _ => some (.number "3")) (.number "3") rfl
  refine ⟨htwo.1.mpr ⟨hall _, .int 2, by simp, by decide, by decide⟩, ?_⟩
  refine (hthree.2.2 (by simp) ?_).mpr ⟨hall _, ?_⟩
  · simp only [List.forall_mem_cons]
    exact ⟨by decide, by decide, by decide, by simp⟩
  · simp only [List.forall_mem_cons, EqualsCell]
    exact ⟨by decide, by decide, by decide, by simp⟩

/-- A value is in no empty list, and 2 is not in a list of 1 and NULL. Neither filter selects it. -/
theorem not_selects_list_ne :
    (¬ ((ofTable "t").filter "a" .ne (.list [])).Selects Sql.holdsExactly
        (fun _ => some (.number "2")) .select ∧
      ∀ v ∈ ([] : List Value), ¬ EqualsCell Sql.holdsExactly (.number "2") v) ∧
    (¬ ((ofTable "t").filter "a" .ne (.list [.int 1, .null])).Selects Sql.holdsExactly
        (fun _ => some (.number "2")) .select ∧
      ∀ v ∈ [Value.int 1, .null], ¬ EqualsCell Sql.holdsExactly (.number "2") v) := by
  have hcompiled : (ofTable "t").statement .select =
      .ok (some (.select ⟨false, none, "t", [], [], [], .all⟩)) := rfl
  have hne : ∀ vs : List Value, ((ofTable "t").filter "a" .ne (.list vs)).Selects Sql.holdsExactly
      (fun _ => some (.number "2")) .select → vs ≠ [] ∧ ∀ v ∈ vs, v.literal ≠ .null := by
    intro vs hselects
    have hcell : (fun _ => some (.number "2") : String → Option Literal) "a" =
      some (.number "2") := rfl
    obtain ⟨-, hvs, hall⟩ := (selects_list_ne hcell hcompiled rfl vs).mp hselects
    exact ⟨hvs, fun v hv => (hall v hv).1⟩
  refine ⟨⟨fun h => (hne [] h).1 rfl, by simp⟩, fun h => ?_, ?_⟩
  · exact (hne _ h).2 .null (by simp) rfl
  · simp only [List.forall_mem_cons, EqualsCell]
    exact ⟨by decide, by decide, by simp⟩

end Query

end RowStore
