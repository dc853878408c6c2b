import RowStore.Proofs.Sql.Predicate

/-!
# What a predicate means

A condition on a row is true, false or unknown. A comparison with NULL is unknown, and a row is
selected only where the whole predicate is true.
-/

namespace RowStore.Sql

/-! ## Three truth values -/

/-- One of the truth values of SQL; `none` is the unknown one. -/
abbrev Truth := Option Bool

namespace Truth

def not (t : Truth) : Truth := t.map (! ·)

def and : Truth → Truth → Truth
  | some false, _ => some false
  | _, some false => some false
  | some true, some true => some true
  | _, _ => none

def or (t u : Truth) : Truth := not (and (not t) (not u))

theorem and_eq_true (t u : Truth) : and t u = some true ↔ t = some true ∧ u = some true := by
  rcases t with _ | _ | _ <;> rcases u with _ | _ | _ <;> decide

theorem not_eq_true (t : Truth) : not t = some true ↔ t = some false := by
  rcases t with _ | _ | _ <;> decide

theorem or_eq_true (t u : Truth) : or t u = some true ↔ t = some true ∨ u = some true := by
  rcases t with _ | _ | _ <;> rcases u with _ | _ | _ <;> decide

theorem or_eq_false (t u : Truth) : or t u = some false ↔ t = some false ∧ u = some false := by
  rcases t with _ | _ | _ <;> rcases u with _ | _ | _ <;> decide

end Truth

/-! ## Conditions on a row -/

section

variable {ν : Type} (holds : ν → Comparison → Literal → Bool)

/-- `holds` says how a value compares with a literal when neither of them is NULL. -/
def compareTruth (cell : Option ν) (comparison : Comparison) (operand : Literal) : Truth :=
  match cell with
  | none => none
  | some v => if operand = .null then none else some (holds v comparison operand)

/-- Equal to the first of the options, or to the second, and so on. -/
def memberTruth (cell : Option ν) (options : List Literal) : Truth :=
  options.foldr (fun l t => (compareTruth holds cell .eq l).or t) (some false)

def Condition.truth (row : String → Option ν) : Condition → Truth
  | isNull column => some (row column).isNone
  | isNotNull column => some (row column).isSome
  | compare column comparison operand => compareTruth holds (row column) comparison operand
  | among column options => memberTruth holds (row column) options
  | notAmong column options => (memberTruth holds (row column) options).not

def whereTruth (row : String → Option ν) (conditions : List Condition) : Truth :=
  conditions.foldr (fun c t => (c.truth holds row).and t) (some true)

/-- Equality of values that are literals themselves. Nothing is known of their order. -/
def holdsExactly (v : Literal) (comparison : Comparison) (operand : Literal) : Bool :=
  match comparison with
  | .eq => v == operand
  | .ne => v != operand
  | _ => false

/-- What the text of a statement says about a row. -/
def textTruth (row : String → Option ν) (sql : String) : Option Truth :=
  ((tokenize sql.toList).bind readPredicate).map (whereTruth holds row)

variable {holds}

theorem compareTruth_eq_some (v : ν) (comparison : Comparison) (operand : Literal) (b : Bool) :
    compareTruth holds (some v) comparison operand = some b ↔
      operand ≠ .null ∧ holds v comparison operand = b := by
  by_cases h : operand = .null <;> simp [compareTruth, h]

theorem memberTruth_eq_true (cell : Option ν) (options : List Literal) :
    memberTruth holds cell options = some true ↔
      ∃ l ∈ options, compareTruth holds cell .eq l = some true := by
  unfold memberTruth
  induction options with
  | nil => simp
  | cons l options ih => rw [List.foldr_cons, Truth.or_eq_true, ih, List.exists_mem_cons_iff]

theorem memberTruth_eq_false (cell : Option ν) (options : List Literal) :
    memberTruth holds cell options = some false ↔
      ∀ l ∈ options, compareTruth holds cell .eq l = some false := by
  unfold memberTruth
  induction options with
  | nil => simp
  | cons l options ih => rw [List.foldr_cons, Truth.or_eq_false, ih, List.forall_mem_cons]

theorem whereTruth_eq_true (row : String → Option ν) (conditions : List Condition) :
    whereTruth holds row conditions = some true ↔
      ∀ c ∈ conditions, c.truth holds row = some true := by
  unfold whereTruth
  induction conditions with
  | nil => simp
  | cons c conditions ih => rw [List.foldr_cons, Truth.and_eq_true, ih, List.forall_mem_cons]

theorem Statement.textTruth_text (s : Statement) (row : String → Option ν)
    (hreadable : ∀ l ∈ s.literals, l.Readable) (h : ∀ c ∈ s.conditions, c.HasOptions) :
    textTruth holds row s.text = some (whereTruth holds row s.conditions) := by
  unfold textTruth
  rw [(s.reads_text hreadable).tokenize_eq, Option.bind_some, s.readPredicate_tokens h]
  rfl

end

end RowStore.Sql
