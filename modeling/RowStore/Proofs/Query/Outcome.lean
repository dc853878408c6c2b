import RowStore.Proofs.Query.Tokens

/-!
# What becomes of a query

A query is refused, or it has no statement because no row can pass its filters, or it has one. The
query alone decides which, and whether rows can pass does not depend on what is done with them.
-/

namespace RowStore

open Sql (Condition Statement)

/-! ## Checks -/

section

variable {α β : Type} {p p' : Prop}

/-- A check that fails if `bad` holds and only then, and never for another reason than that the
request is invalid. -/
structure Refuses (bad : Prop) (check : Except Fault α) : Prop where
  refused (h : bad) : ∃ cause, check = .error (.invalid cause)
  passed (h : ¬ bad) : ∃ a, check = .ok a

namespace Refuses

theorem pure (a : α) : Refuses False (.ok a : Except Fault α) := ⟨False.elim, fun _ => ⟨a, rfl⟩⟩

theorem congr {check : Except Fault α} (h : Refuses p check) (hp : p ↔ p') : Refuses p' check :=
  ⟨fun hp' => h.refused (hp.mpr hp'), fun hp' => h.passed (mt hp.mp hp')⟩

theorem bind {check : Except Fault α} {f : α → Except Fault β} (h : Refuses p check)
    (hf : ∀ a, check = .ok a → Refuses p' (f a)) : Refuses (p ∨ p') (check >>= f) := by
  by_cases hp : p
  · obtain ⟨cause, hcheck⟩ := h.refused hp
    rw [hcheck]
    exact ⟨fun _ => ⟨cause, rfl⟩, fun hnot => absurd (Or.inl hp) hnot⟩
  · obtain ⟨a, hcheck⟩ := h.passed hp
    have hrest := hf a hcheck
    rw [hcheck, Checks.ok_bind]
    exact ⟨fun hor => hrest.refused (hor.resolve_left hp),
      fun hnot => hrest.passed (mt Or.inr hnot)⟩

theorem then_pure {check : Except Fault α} (h : Refuses p check) (f : α → β) :
    Refuses p (check >>= fun a => Pure.pure (f a)) :=
  (h.bind fun a _ => pure (f a)).congr (by simp)

theorem mapM {bad : α → Prop} {f : α → Except Fault β} (h : ∀ a, Refuses (bad a) (f a))
    (xs : List α) : Refuses (∃ x ∈ xs, bad x) (xs.mapM f) := by
  induction xs with
  | nil => exact (pure []).congr (by simp)
  | cons x xs ih =>
    rw [List.mapM_cons]
    refine ((h x).bind fun y _ => ih.then_pure fun ys => y :: ys).congr ?_
    exact (List.exists_mem_cons_iff bad x xs).symm

end Refuses

end

/-! ## What is wrong with a query -/

/-- A name that cannot be a column, or would come back as another one. -/
def BadField (name : String) : Prop := name = "" ∨ ColumnName.marker <:+: name.toList

/-- A filter that asks for an order among the values of a list, or has no column. -/
def Filter.Erroneous (f : Filter) : Prop :=
  BadField f.field ∨
    (∃ vs, f.operand = .list vs ∧ vs ≠ []) ∧ f.comparison ∈ [Comparison.gt, .ge, .lt, .le]

namespace Query

def Erroneous (q : Query) : Prop := ∃ f ∈ q.filters, f.Erroneous

def Unsatisfiable (q : Query) : Prop := ¬ q.Erroneous ∧ ∃ f ∈ q.filters, f.operand = .list []

/-- A patch that sets nothing, or a field without a column. -/
def Use.BadPatch : Use → Prop
  | .update patch => patch.names = [] ∨ ∃ name ∈ patch.names, BadField name
  | _ => False

/-- What is refused even if no row can pass the filters. -/
def Rejected (q : Query) (use : Use) : Prop :=
  Text.blankOnly q.table = true ∨ use.BadPatch ∨ q.Erroneous

def BadOrder (q : Query) : Prop := ∃ o ∈ q.orders, BadField o.field

/-- What is refused only of a query that rows can pass. Nothing of it matters to a count. -/
def Unfit (q : Query) : Use → Prop
  | .select =>
    (∃ names, q.selection = some names ∧ ∃ name ∈ names, BadField name) ∨
      (∃ name ∈ q.groups, BadField name) ∨ q.BadOrder
  | .count => False
  | .delete | .update _ => q.BadOrder ∨ ∃ n, q.offset = some n ∧ n ≠ 0

end Query

/-! ## Names and filters -/

theorem refuses_ofField? (name : String) : Refuses (BadField name) (ColumnName.ofField? name) := by
  unfold ColumnName.ofField? BadField
  rw [← Text.occursIn_iff, ← String.isEmpty_iff]
  split
  · rename_i hempty
    exact ⟨fun _ => ⟨_, rfl⟩, fun hnot => absurd (Or.inl hempty) hnot⟩
  · rename_i hempty
    split
    · rename_i hmarker
      exact ⟨fun _ => ⟨_, rfl⟩, fun hnot => absurd (Or.inr hmarker) hnot⟩
    · rename_i hmarker
      exact (Refuses.pure _).congr (by simp [hempty, hmarker])

theorem Filter.refuses_condition (f : Filter) : Refuses f.Erroneous f.condition := by
  obtain ⟨field, comparison, operand⟩ := f
  refine ((refuses_ofField? field).bind fun column _ => ?_ :
    Refuses (_ ∨ (∃ vs, operand = .list vs ∧ vs ≠ []) ∧
      comparison ∈ [Comparison.gt, .ge, .lt, .le]) _)
  dsimp only
  split
  case h_1 | h_2 | h_3 | h_4 => exact (Refuses.pure _).congr (by simp)
  case h_5 vs hne =>
    have hvs : ∃ ws, Operand.list vs = .list ws ∧ ws ≠ [] := ⟨vs, rfl, hne⟩
    rw [and_iff_right hvs]
    cases comparison with
    | eq | ne => exact (Refuses.pure _).congr (by simp)
    | gt | ge | lt | le => exact ⟨fun _ => ⟨_, rfl⟩, fun hnot => absurd (by simp) hnot⟩

theorem Filter.condition_none_iff (f : Filter) (found : Option Condition)
    (h : f.condition = .ok found) : found = none ↔ f.operand = .list [] := by
  unfold Filter.condition at h
  obtain ⟨column, -, h⟩ := Checks.bind_eq_ok.mp h
  split at h
  case h_1 hoperand | h_2 hoperand =>
    obtain rfl := Checks.pure_eq_ok.mp h
    simp [hoperand]
  case h_3 hoperand =>
    obtain rfl := Checks.pure_eq_ok.mp h
    simp [hoperand]
  case h_4 hoperand =>
    obtain rfl := Checks.pure_eq_ok.mp h
    simp [hoperand]
  case h_5 vs hne hoperand =>
    rw [hoperand, Operand.list.injEq]
    refine iff_of_false ?_ hne
    rintro rfl
    split at h
    · exact absurd (Checks.pure_eq_ok.mp h) (by simp)
    · exact absurd (Checks.pure_eq_ok.mp h) (by simp)
    · exact Checks.throw_ne_ok h

namespace Query

variable {q : Query}

theorem refuses_conditions (q : Query) : Refuses q.Erroneous q.conditions :=
  (Refuses.mapM Filter.refuses_condition q.filters).then_pure _

theorem refuses_columns (names : List String) :
    Refuses (∃ name ∈ names, BadField name) (columns names) :=
  Refuses.mapM refuses_ofField? names

theorem refuses_orderings (q : Query) : Refuses q.BadOrder q.orderings := by
  have hone (o : Order) : Refuses (BadField o.field) (do
      let column ← ColumnName.ofField? o.field
      return (⟨column, o.descending⟩ : Sql.Ordering)) := (refuses_ofField? o.field).then_pure _
  exact Refuses.mapM hone q.orders

theorem refuses_assignments (patch : Record) :
    Refuses (∃ name ∈ patch.names, BadField name) (patch.fields.mapM fun (name, value) => do
      let column ← ColumnName.ofField? name
      return (column, value.literal)) := by
  have hone (f : String × Value) : Refuses (BadField f.1) (do
      let column ← ColumnName.ofField? f.1
      return (column, f.2.literal)) := (refuses_ofField? f.1).then_pure _
  refine (Refuses.mapM hone patch.fields).congr ?_
  simp [Record.names]

theorem refuses_checkTable (q : Query) :
    Refuses (Text.blankOnly q.table = true) q.checkTable := by
  unfold checkTable
  split
  · rename_i hblank
    exact ⟨fun _ => ⟨_, rfl⟩, fun hnot => absurd hblank hnot⟩
  · rename_i hblank
    exact (Refuses.pure _).congr (by simp [hblank])

theorem refuses_projection (q : Query) :
    Refuses (∃ names, q.selection = some names ∧ ∃ name ∈ names, BadField name) q.projection := by
  unfold projection
  split
  case h_1 h => exact (Refuses.pure _).congr (by simp [h])
  case h_2 h => exact (Refuses.pure _).congr (by simp [h])
  case h_3 names _ h =>
    refine ((refuses_columns names).then_pure some).congr ?_
    simp [h]

theorem refuses_changeWindow (q : Query) :
    Refuses (∃ n, q.offset = some n ∧ n ≠ 0) q.changeWindow := by
  have hpositive : (∃ n, q.offset = some n ∧ n ≠ 0) ↔ ∃ k, q.offset.bind positive = some k := by
    cases q.offset with
    | none => simp
    | some n => by_cases hn : n = 0 <;> simp [positive, hn]
  rw [hpositive]
  unfold changeWindow window
  cases q.limit.bind positive <;> cases q.offset.bind positive
  · exact (Refuses.pure _).congr (by simp)
  · exact ⟨fun _ => ⟨_, rfl⟩, fun hnot => absurd ⟨_, rfl⟩ hnot⟩
  · exact (Refuses.pure _).congr (by simp)
  · exact ⟨fun _ => ⟨_, rfl⟩, fun hnot => absurd ⟨_, rfl⟩ hnot⟩

theorem conditions_none_iff (q : Query) : q.conditions = .ok none ↔ q.Unsatisfiable := by
  by_cases herroneous : q.Erroneous
  · obtain ⟨cause, hrefused⟩ := q.refuses_conditions.refused herroneous
    simp [hrefused, Unsatisfiable, herroneous]
  · obtain ⟨found, hfound⟩ :=
      (Refuses.mapM Filter.refuses_condition q.filters).passed herroneous
    have hconditions : q.conditions = .ok (found.mapM id) := by
      unfold Query.conditions
      rw [hfound]
      rfl
    have hall := Checks.mapM_eq_ok.mp hfound
    rw [hconditions, Except.ok.injEq, Unsatisfiable, and_iff_right herroneous,
      Checks.mapM_id_eq_none]
    constructor
    · intro hnone
      obtain ⟨f, hf, hcondition⟩ := Checks.exists_of_forall₂_right hall none hnone
      exact ⟨f, hf, (f.condition_none_iff none hcondition).mp rfl⟩
    · rintro ⟨f, hf, hempty⟩
      obtain ⟨c, hc, hcondition⟩ := Checks.exists_of_forall₂_right hall.flip f hf
      rwa [(f.condition_none_iff c hcondition).mpr hempty] at hc

/-! ## Outcomes -/

/-- Exactly one of three things becomes of a query. -/
structure Becomes (wrong empty : Prop) (compiled : Except Fault (Option Statement)) : Prop where
  refused (h : wrong) : ∃ cause, compiled = .error (.invalid cause)
  nothing (h : ¬ wrong) (h' : empty) : compiled = .ok none
  made (h : ¬ wrong) (h' : ¬ empty) : ∃ s, compiled = .ok (some s)

namespace Becomes

variable {α : Type} {wrong wrong' bad empty : Prop} {compiled : Except Fault (Option Statement)}

theorem pure (s : Statement) : Becomes False False (.ok (some s)) :=
  ⟨False.elim, fun _ => False.elim, fun _ _ => ⟨s, rfl⟩⟩

theorem fail (cause : Invalid) (h : wrong) : Becomes wrong empty (.error (.invalid cause)) :=
  ⟨fun _ => ⟨cause, rfl⟩, fun hnot => absurd h hnot, fun hnot => absurd h hnot⟩

theorem congr (h : Becomes wrong empty compiled) (hwrong : wrong ↔ wrong') :
    Becomes wrong' empty compiled := by rwa [← propext hwrong]

theorem check {x : Except Fault α} {f : α → Except Fault (Option Statement)} (hx : Refuses bad x)
    (hf : ∀ a, Becomes wrong empty (f a)) : Becomes (bad ∨ wrong) empty (x >>= f) := by
  by_cases hbad : bad
  · obtain ⟨cause, hcheck⟩ := hx.refused hbad
    rw [hcheck]
    exact fail cause (Or.inl hbad)
  · obtain ⟨a, hcheck⟩ := hx.passed hbad
    rw [hcheck, Checks.ok_bind]
    exact (hf a).congr (by simp [hbad])

theorem filters {make : Option (List Condition) → Except Fault (Option Statement)}
    (hnone : make none = .ok none) (hsome : ∀ cs, Becomes bad False (make (some cs))) :
    Becomes (q.Erroneous ∨ ¬ q.Unsatisfiable ∧ bad) q.Unsatisfiable (q.conditions >>= make) := by
  by_cases herroneous : q.Erroneous
  · obtain ⟨cause, hrefused⟩ := q.refuses_conditions.refused herroneous
    rw [hrefused]
    exact fail cause (Or.inl herroneous)
  obtain ⟨found, hfound⟩ := q.refuses_conditions.passed herroneous
  have hempty := q.conditions_none_iff
  rw [hfound, Except.ok.injEq] at hempty
  rw [hfound, Checks.ok_bind]
  cases found with
  | none =>
    have hunsatisfiable := hempty.mp rfl
    rw [hnone]
    exact ⟨fun h => absurd hunsatisfiable (h.resolve_left herroneous).1, fun _ _ => rfl,
      fun _ h => absurd hunsatisfiable h⟩
  | some cs =>
    have hsatisfiable : ¬ q.Unsatisfiable := fun h => nomatch hempty.mpr h
    have hrest := (hsome cs).congr (show bad ↔ q.Erroneous ∨ ¬ q.Unsatisfiable ∧ bad by
      simp [herroneous, hsatisfiable])
    exact ⟨hrest.refused, fun _ h => absurd h hsatisfiable, fun h _ => hrest.made h id⟩

end Becomes

theorem becomes_select (q : Query) :
    Becomes (q.Rejected .select ∨ ¬ q.Unsatisfiable ∧ q.Unfit .select) q.Unsatisfiable
      q.toSelect := by
  have h : Becomes _ q.Unsatisfiable q.toSelect :=
    Becomes.check q.refuses_checkTable fun _ => Becomes.filters rfl fun _ =>
      Becomes.check q.refuses_projection fun _ => Becomes.check (refuses_columns q.groups) fun _ =>
        Becomes.check q.refuses_orderings fun _ => Becomes.pure _
  refine h.congr ?_
  simp only [Rejected, Use.BadPatch, Unfit, or_false, false_or]
  exact or_assoc.symm

theorem becomes_count (q : Query) :
    Becomes (q.Rejected .count ∨ ¬ q.Unsatisfiable ∧ q.Unfit .count) q.Unsatisfiable
      q.toCount := by
  have h : Becomes _ q.Unsatisfiable q.toCount :=
    Becomes.check q.refuses_checkTable fun _ => Becomes.filters rfl fun _ => Becomes.pure _
  refine h.congr ?_
  simp only [Rejected, Use.BadPatch, Unfit, false_or]
  exact or_assoc.symm

theorem becomes_delete (q : Query) :
    Becomes (q.Rejected .delete ∨ ¬ q.Unsatisfiable ∧ q.Unfit .delete) q.Unsatisfiable
      q.toDelete := by
  have h : Becomes _ q.Unsatisfiable q.toDelete :=
    Becomes.check q.refuses_checkTable fun _ => Becomes.filters rfl fun _ =>
      Becomes.check q.refuses_orderings fun _ => Becomes.check q.refuses_changeWindow fun _ =>
        Becomes.pure _
  refine h.congr ?_
  simp only [Rejected, Use.BadPatch, Unfit, or_false, false_or]
  exact or_assoc.symm

theorem becomes_update (q : Query) (patch : Record) :
    Becomes (q.Rejected (.update patch) ∨ ¬ q.Unsatisfiable ∧ q.Unfit (.update patch))
      q.Unsatisfiable (q.toUpdate patch) := by
  have hempty : patch.isEmpty = true ↔ patch.names = [] := by
    rw [Record.isEmpty, List.isEmpty_iff, Record.names, List.map_eq_nil_iff]
  have h : Becomes (Text.blankOnly q.table = true ∨ patch.names = [] ∨
      (∃ name ∈ patch.names, BadField name) ∨ q.Erroneous ∨
      ¬ q.Unsatisfiable ∧ q.Unfit (.update patch)) q.Unsatisfiable (q.toUpdate patch) := by
    refine Becomes.check q.refuses_checkTable fun _ => ?_
    dsimp only
    split
    · rename_i hnothing
      exact Becomes.fail _ (Or.inl (hempty.mp hnothing))
    · rename_i hsome
      simp only [mt hempty.mpr hsome, false_or]
      refine Becomes.check (refuses_assignments patch) fun _ => Becomes.filters rfl fun _ => ?_
      exact (Becomes.check q.refuses_orderings fun _ => Becomes.check q.refuses_changeWindow
        fun _ => Becomes.pure _).congr (by simp [Unfit])
  refine h.congr ?_
  simp only [Rejected, Use.BadPatch, or_assoc]

theorem becomes_statement (q : Query) (use : Use) :
    Becomes (q.Rejected use ∨ ¬ q.Unsatisfiable ∧ q.Unfit use) q.Unsatisfiable
      (q.statement use) := by
  cases use with
  | select => exact q.becomes_select
  | count => exact q.becomes_count
  | delete => exact q.becomes_delete
  | update patch => exact q.becomes_update patch

theorem statement_refused {q : Query} {use : Use} (h : q.Rejected use) :
    ∃ cause, q.statement use = .error (.invalid cause) :=
  (q.becomes_statement use).refused (Or.inl h)

theorem statement_says {q : Query} {use : Use} (hpassed : ¬ q.Rejected use)
    (hrows : ¬ q.Unsatisfiable) (hfit : ¬ q.Unfit use) :
    ∃ s, q.statement use = .ok (some s) ∧ Sql.tokenize s.text.toList = some (q.tokens use) := by
  obtain ⟨s, hs⟩ := (q.becomes_statement use).made (by tauto) hrows
  obtain ⟨htokens, hreadable⟩ := tokens_statement hs
  refine ⟨s, hs, ?_⟩
  rw [← htokens]
  exact (s.reads_text hreadable).tokenize_eq

/-- The query alone decides what becomes of it. The same queries have no statement for every use,
and an error is never anything but a refusal. -/
theorem statement_outcome (q : Query) (use : Use) :
    (q.Erroneous ↔ ∃ cause, q.conditions = .error (.invalid cause)) ∧
    (q.Unsatisfiable ↔ q.conditions = .ok none) ∧
    ((∃ cause, q.statement use = .error (.invalid cause)) ↔
      q.Rejected use ∨ ¬ q.Unsatisfiable ∧ q.Unfit use) ∧
    (q.statement use = .ok none ↔ ¬ q.Rejected use ∧ q.Unsatisfiable) ∧
    ((∃ s, q.statement use = .ok (some s)) ↔
      ¬ q.Rejected use ∧ ¬ q.Unsatisfiable ∧ ¬ q.Unfit use) ∧
    ∀ fault, q.statement use = .error fault → ∃ cause, fault = .invalid cause := by
  have hconditions : q.Erroneous ↔ ∃ cause, q.conditions = .error (.invalid cause) := by
    refine ⟨q.refuses_conditions.refused, ?_⟩
    rintro ⟨cause, hcause⟩
    by_contra hnot
    obtain ⟨found, hfound⟩ := q.refuses_conditions.passed hnot
    cases hcause.symm.trans hfound
  have h := q.becomes_statement use
  refine ⟨hconditions, q.conditions_none_iff.symm, ?_⟩
  -- One of the three outcomes is there, which excludes the other two.
  by_cases hwrong : q.Rejected use ∨ ¬ q.Unsatisfiable ∧ q.Unfit use
  · obtain ⟨cause, hrefused⟩ := h.refused hwrong
    rw [hrefused]
    refine ⟨iff_of_true ⟨cause, rfl⟩ hwrong, ?_, ?_, ?_⟩
    · exact iff_of_false nofun (by tauto)
    · exact iff_of_false nofun (by tauto)
    · intro fault hfault
      exact ⟨cause, (Except.error.inj hfault).symm⟩
  by_cases hempty : q.Unsatisfiable
  · rw [h.nothing hwrong hempty]
    exact ⟨iff_of_false nofun hwrong, iff_of_true rfl (by tauto), iff_of_false nofun (by tauto),
      nofun⟩
  · obtain ⟨s, hmade⟩ := h.made hwrong hempty
    rw [hmade]
    exact ⟨iff_of_false nofun hwrong, iff_of_false nofun (by tauto),
      iff_of_true ⟨s, rfl⟩ (by tauto), nofun⟩

/-- A bad name is refused even if no row can pass another filter. -/
theorem statement_outcome_mixed :
    let q := ((ofTable "t").filterEq "a_dot_b" (.value (.int 1))).filter "c" .gt (.list [])
    let r := ((ofTable "t").filterEq "a.b" (.value (.int 1))).filter "c" .gt (.list [])
    (∃ cause, q.statement .count = .error (.invalid cause)) ∧ r.statement .count = .ok none := by
  intro q r
  obtain ⟨-, -, hrefused, -⟩ := statement_outcome q .count
  obtain ⟨-, -, -, hnothing, -⟩ := statement_outcome r .count
  have hbad : BadField "a_dot_b" ∧ ¬ BadField "a.b" ∧ ¬ BadField "c" := by
    unfold BadField
    decide
  refine ⟨hrefused.mpr (Or.inl (Or.inr (Or.inr ⟨_, List.mem_cons_self, Or.inl hbad.1⟩))),
    hnothing.mpr ?_⟩
  have hgood : ¬ r.Erroneous := by
    simp [r, Erroneous, Filter.Erroneous, filterEq, filter, ofTable, hbad]
  refine ⟨?_, hgood, ⟨"c", .gt, .list []⟩, by simp [r, filter], rfl⟩
  simp only [Rejected, Use.BadPatch, hgood, or_false]
  decide

end Query

end RowStore
