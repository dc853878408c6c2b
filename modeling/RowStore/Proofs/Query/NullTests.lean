import RowStore.Proofs.Infix
import RowStore.Proofs.Query.Membership

/-!
# Comparisons with NULL

A comparison with NULL lets no row through. A filter without a value is a test for NULL instead, but
a number that is not finite and the JSON null are values whose literal is NULL.
-/

namespace RowStore

open Sql (Condition Literal Token words)

/-! ## Conditions -/

/-- A comparison, and NULL right behind it. -/
def comparesNull (comparison : Comparison) : List Token := [.comparison comparison, .word "NULL"]

theorem comparison_notMem_literal (comparison : Comparison) (l : Literal) :
    Token.comparison comparison ∉ l.tokens := by
  cases l with
  | number digits =>
    rcases Sql.numberTokens_cases digits with ⟨htokens, -⟩ | ⟨cs, -, htokens⟩ <;>
      simp [Literal.tokens, htokens]
  | _ => simp [Literal.tokens]

theorem comparison_notMem_tuple (comparison : Comparison) (options : List Literal) :
    Token.comparison comparison ∉ Sql.tupleTokens options := by
  simp only [Sql.tupleTokens, Sql.listTokens, List.mem_append, List.mem_singleton, reduceCtorEq,
    false_or, or_false]
  intro h
  rcases Sql.of_mem_intercalate h with heq | ⟨part, hpart, h⟩
  · cases heq
  · obtain ⟨l, -, rfl⟩ := List.mem_map.mp hpart
    exact comparison_notMem_literal comparison l h

theorem null_prefix_iff (l : Literal) : [Token.word "NULL"] <+: l.tokens ↔ l = .null := by
  cases l with
  | bool b => cases b <;> simp [Literal.tokens]
  | number digits =>
    rcases Sql.numberTokens_cases digits with ⟨htokens, -⟩ | ⟨cs, -, htokens⟩ <;>
      simp [Literal.tokens, htokens]
  | _ => simp [Literal.tokens]

theorem comparesNull_condition (comparison : Comparison) (c : Condition) :
    comparesNull comparison <:+: c.tokens ↔ ∃ column, c = .compare column comparison .null := by
  have hnone : ∀ ts : List Token, Token.comparison comparison ∉ ts →
      ¬ comparesNull comparison <:+: ts :=
    fun ts hts h => hts (h.subset (by simp [comparesNull]))
  cases c with
  | compare column other operand =>
    have hoperand := hnone _ (comparison_notMem_literal comparison operand)
    unfold comparesNull at hoperand ⊢
    rw [Condition.tokens, List.infix_cons_iff, List.cons_prefix_cons, List.infix_cons_iff,
      List.cons_prefix_cons (a := Token.comparison comparison), null_prefix_iff]
    simp [hoperand, eq_comm]
  | isNull column => simpa using hnone _ (by simp [Condition.tokens, words])
  | isNotNull column => simpa using hnone _ (by simp [Condition.tokens, words])
  | among column options =>
    simpa using hnone _ (by simp [Condition.tokens, words, comparison_notMem_tuple])
  | notAmong column options =>
    simpa using hnone _ (by simp [Condition.tokens, words, comparison_notMem_tuple])

theorem comparesNull_where (comparison : Comparison) (conditions : List Condition) :
    comparesNull comparison <:+: Sql.whereTokens conditions ↔
      ∃ column, .compare column comparison .null ∈ conditions := by
  have hne : comparesNull comparison ≠ [] := by simp [comparesNull]
  have hand : Token.word "AND" ∉ comparesNull comparison := by simp [comparesNull]
  have hwhere : Token.word "WHERE" ∉ comparesNull comparison := by simp [comparesNull]
  have hparts : comparesNull comparison <:+: Sql.whereTokens conditions ↔
      ∃ part ∈ conditions.map Condition.tokens, comparesNull comparison <:+: part := by
    cases conditions with
    | nil => simp [Sql.whereTokens, hne]
    | cons c conditions =>
      have htokens : Sql.whereTokens (c :: conditions) = [] ++ .word "WHERE" ::
          [Token.word "AND"].intercalate ((c :: conditions).map Condition.tokens) := rfl
      rw [htokens, infix_append_cons hne hwhere, infix_intercalate hne hand]
      simp [hne]
  rw [hparts]
  constructor
  · rintro ⟨part, hpart, h⟩
    obtain ⟨c, hc, rfl⟩ := List.mem_map.mp hpart
    obtain ⟨column, rfl⟩ := (comparesNull_condition comparison c).mp h
    exact ⟨column, hc⟩
  · rintro ⟨column, hc⟩
    exact ⟨_, List.mem_map_of_mem hc, (comparesNull_condition comparison _).mpr ⟨column, rfl⟩⟩

/-! ## Filters -/

theorem Value.literal_eq_null_iff (v : Value) : v.literal = .null ↔
    v.isNull = true ∨ (∃ x, v = .float x ∧ x.isFinite = false) ∨ v = .json .null := by
  cases v with
  | float x => by_cases h : x.isFinite = true <;> simp [Value.literal, Value.isNull, h]
  | json j => cases j <;> simp [Value.literal, Json.literal, Value.isNull]
  | _ => simp [Value.literal, Value.isNull]

/-- A value other than NULL whose literal is NULL. -/
def Value.PrintsNull (v : Value) : Prop :=
  (∃ x, v = .float x ∧ x.isFinite = false) ∨ v = .json .null

theorem Value.literal_eq_null_of_not_isNull (v : Value) (h : v.isNull = false) :
    v.literal = .null ↔ v.PrintsNull := by
  rw [v.literal_eq_null_iff, h]
  simp [Value.PrintsNull]

theorem Value.PrintsNull.isNull_eq_false {v : Value} (h : v.PrintsNull) : v.isNull = false := by
  rcases h with ⟨x, rfl, -⟩ | rfl <;> rfl

theorem Filter.comparison_null_iff (f : Filter) (c : Condition) (h : f.condition = .ok (some c)) :
    (∃ column comparison, c = .compare column comparison .null) ↔
      ∃ v, f.operand = .value v ∧ v.PrintsNull := by
  rcases f.condition_cases c h with
    ⟨hnull, rfl⟩ | ⟨v, hoperand, hnull, rfl⟩ | ⟨vs, hoperand, -, ⟨-, rfl⟩ | ⟨-, rfl⟩⟩
  · constructor
    · rintro ⟨column, comparison, heq⟩
      split at heq <;> cases heq
    · rintro ⟨v, hoperand, hv⟩
      rw [hoperand, Operand.isNull, hv.isNull_eq_false] at hnull
      cases hnull
  · simp only [Condition.compare.injEq, hoperand, Operand.value.injEq]
    constructor
    · rintro ⟨column, comparison, -, -, hliteral⟩
      exact ⟨v, rfl, (v.literal_eq_null_of_not_isNull hnull).mp hliteral⟩
    · rintro ⟨_, rfl, hv⟩
      exact ⟨_, _, rfl, rfl, (v.literal_eq_null_of_not_isNull hnull).mpr hv⟩
  · simp [hoperand]
  · simp [hoperand]

namespace Query

/-- Filters without a value are tests for NULL. A statement compares with NULL exactly for a value
that is no NULL but is written as one. -/
theorem compares_null_iff (q : Query) (use : Use) (s : Sql.Statement)
    (h : q.statement use = .ok (some s)) :
    ∃ ts conditions, Sql.tokenize s.text.toList = some ts ∧
      Sql.readPredicate ts = some conditions ∧
      List.Forall₂ (fun (f : Filter) c => f.operand.isNull = true → c =
        if f.comparison = .eq then .isNull (ColumnName.ofField f.field)
        else .isNotNull (ColumnName.ofField f.field)) q.filters conditions ∧
      ((∃ comparison, comparesNull comparison <:+: Sql.predicateTokens ts) ↔
        ∃ f ∈ q.filters, ∃ v, f.operand = .value v ∧ v.PrintsNull) := by
  have hconditions := conditions_eq_ok (conditions_statement h)
  refine ⟨s.tokens, s.conditions, (s.reads_text (tokens_statement h).2).tokenize_eq,
    s.readPredicate_tokens (hasOptions_statement h), ?_, ?_⟩
  · refine hconditions.imp fun f c hc hnull => ?_
    rcases f.condition_cases c hc with ⟨-, heq⟩ | ⟨v, hoperand, hv, -⟩ | ⟨vs, hoperand, -⟩
    · exact heq
    · rw [hoperand, Operand.isNull, hv] at hnull
      cases hnull
    · rw [hoperand] at hnull
      cases hnull
  · rw [s.predicateTokens_tokens]
    simp only [comparesNull_where]
    constructor
    · rintro ⟨comparison, column, hc⟩
      obtain ⟨f, hf, hcondition⟩ := Checks.exists_of_forall₂_right hconditions _ hc
      exact ⟨f, hf, (f.comparison_null_iff _ hcondition).mp ⟨column, comparison, rfl⟩⟩
    · rintro ⟨f, hf, hv⟩
      obtain ⟨c, hc, hcondition⟩ :=
        Checks.exists_of_forall₂_right hconditions.flip f hf
      obtain ⟨column, comparison, rfl⟩ := (f.comparison_null_iff c hcondition).mpr hv
      exact ⟨comparison, column, hc⟩

theorem compares_null_infinite :
    ∃ ts, Sql.tokenize "SELECT * FROM `t` WHERE `a` IS NOT NULL AND `b` < NULL".toList = some ts ∧
      ∃ comparison, comparesNull comparison <:+: Sql.predicateTokens ts := by
  have hstatement : (((ofTable "t").filter "a" .gt .missing).filter "b" .lt
      (.value (.float ⟨0x7ff0000000000000⟩))).statement .select = .ok (some (.select
        ⟨false, none, "t", [.isNotNull "a", .compare "b" .lt .null], [], [], .all⟩)) := rfl
  obtain ⟨ts, conditions, hts, -, -, h⟩ := compares_null_iff _ .select _ hstatement
  refine ⟨ts, hts, h.mpr ⟨⟨"b", .lt, .value (.float ⟨0x7ff0000000000000⟩)⟩, ?_, _, rfl, ?_⟩⟩
  · simp [Query.filter]
  · exact Or.inl ⟨_, rfl, by decide⟩

/-- A number that is none, as the value of a filter. -/
theorem nan_compared_with_null :
    ∃ s ts, ((ofTable "t").filter "a" .eq (.value (.float ⟨0x7ff8000000000000⟩))).statement .select =
        .ok (some s) ∧ s.text = "SELECT * FROM `t` WHERE `a` = NULL" ∧
      Sql.tokenize s.text.toList = some ts ∧ comparesNull .eq <:+: Sql.predicateTokens ts := by
  have hstatement : ((ofTable "t").filter "a" .eq
      (.value (.float ⟨0x7ff8000000000000⟩))).statement .select = .ok (some (.select
        ⟨false, none, "t", [.compare "a" .eq .null], [], [], .all⟩)) := rfl
  refine ⟨_, _, hstatement, rfl,
    (Sql.Statement.reads_text _ (tokens_statement hstatement).2).tokenize_eq, ?_⟩
  rw [Sql.Statement.predicateTokens_tokens, comparesNull_where]
  exact ⟨"a", by simp [Sql.Statement.conditions]⟩

end Query

end RowStore
