import Mathlib
import RowStore.Proofs.Sql.Insert

/-!
# Reading a predicate back

The conditions of a statement are what stands between the word WHERE and the next clause. They can
be read back from the tokens, whatever the columns and the literals hold.
-/

namespace RowStore.Sql

/-! ## Reading -/

/-- The literals of a list. A list has at least one of them. -/
def readOptions (ts : List Token) : Option (List Literal) :=
  match readList ts with
  | some (part :: parts, []) => (part :: parts).mapM readLiteral
  | _ => none

def readCondition : List Token → Option Condition
  | [.name column, .word "IS", .word "NULL"] => some (.isNull column)
  | [.name column, .word "IS", .word "NOT", .word "NULL"] => some (.isNotNull column)
  | .name column :: .comparison comparison :: operand =>
    (readLiteral operand).map (.compare column comparison)
  | .name column :: .word "IN" :: options => (readOptions options).map (.among column)
  | .name column :: .word "NOT" :: .word "IN" :: options =>
    (readOptions options).map (.notAmong column)
  | _ => none

def readConditions (ts : List Token) : Option (List Condition) :=
  (ts.splitOn (.word "AND")).mapM readCondition

def isClause (t : Token) : Bool :=
  t == .word "GROUP" || t == .word "ORDER" || t == .word "LIMIT"

/-- The conditions in front of the clauses that follow the rows of a table. -/
def readWhere (ts : List Token) : Option (List Condition) :=
  match ts.takeWhile fun t => !isClause t with
  | [] => some []
  | .word "WHERE" :: rest => readConditions rest
  | _ => none

/-- What follows the table of a statement, or its assignments. -/
def afterRows (ts : List Token) : List Token :=
  ts.dropWhile fun t => !(t == .word "WHERE" || isClause t)

/-- The tokens of a statement from the word WHERE to the next clause. -/
def predicateTokens (ts : List Token) : List Token := (afterRows ts).takeWhile fun t => !isClause t

/-- The conditions of a whole statement. -/
def readPredicate (ts : List Token) : Option (List Condition) := readWhere (afterRows ts)

/-! ## Words of a statement -/

/-- True when every word among the tokens is one of `ws`. -/
def OnlyWords (ws : List String) (ts : List Token) : Prop := ∀ w, Token.word w ∈ ts → w ∈ ws

variable {ws : List String} {ts us : List Token}

theorem onlyWords_nil : OnlyWords ws [] := by simp [OnlyWords]

theorem onlyWords_cons (t : Token) :
    OnlyWords ws (t :: ts) ↔ (∀ w, t = .word w → w ∈ ws) ∧ OnlyWords ws ts := by
  simp only [OnlyWords, List.mem_cons, or_imp, forall_and, eq_comm]

theorem onlyWords_append : OnlyWords ws (ts ++ us) ↔ OnlyWords ws ts ∧ OnlyWords ws us := by
  simp only [OnlyWords, List.mem_append, or_imp, forall_and]

theorem onlyWords_intercalate (sep : Token) (parts : List (List Token)) (hsep : OnlyWords ws [sep])
    (h : ∀ part ∈ parts, OnlyWords ws part) : OnlyWords ws ([sep].intercalate parts) := by
  intro w hw
  rcases of_mem_intercalate hw with rfl | ⟨part, hpart, hw⟩
  · exact hsep w List.mem_cons_self
  · exact h part hpart w hw

theorem OnlyWords.mono {vs : List String} (h : OnlyWords vs ts) (hsub : ∀ v ∈ vs, v ∈ ws) :
    OnlyWords ws ts := fun w hw => hsub w (h w hw)

theorem OnlyWords.notMem (h : OnlyWords ws ts) (w : String) (hw : w ∉ ws) : Token.word w ∉ ts :=
  fun hmem => hw (h w hmem)

theorem onlyWords_literal (l : Literal) : OnlyWords ["NULL", "true", "false"] l.tokens := by
  cases l with
  | bool b => cases b <;> simp [OnlyWords, Literal.tokens]
  | number digits =>
    rcases numberTokens_cases digits with ⟨htokens, -⟩ | ⟨cs, -, htokens⟩ <;>
      simp [OnlyWords, Literal.tokens, htokens]
  | _ => simp [OnlyWords, Literal.tokens]

theorem onlyWords_list (parts : List (List Token)) (h : ∀ part ∈ parts, OnlyWords ws part) :
    OnlyWords ws (listTokens parts) := by
  unfold listTokens commaTokens
  rw [onlyWords_append, onlyWords_append]
  refine ⟨⟨by simp [OnlyWords], ?_⟩, by simp [OnlyWords]⟩
  exact onlyWords_intercalate _ parts (by simp [OnlyWords]) h

theorem onlyWords_names (names : List String) : OnlyWords ws (namesTokens names) := by
  refine onlyWords_intercalate _ _ (by simp [OnlyWords]) ?_
  intro part hpart
  obtain ⟨name, -, rfl⟩ := List.mem_map.mp hpart
  simp [OnlyWords, nameTokens]

theorem onlyWords_path (path : String) : OnlyWords ws (pathTokens path) := by
  refine onlyWords_intercalate _ _ (by simp [OnlyWords]) ?_
  intro part hpart
  obtain ⟨name, -, rfl⟩ := List.mem_map.mp hpart
  simp [OnlyWords, nameTokens]

theorem onlyWords_tuple (options : List Literal) :
    OnlyWords ["NULL", "true", "false"] (tupleTokens options) := by
  refine onlyWords_list _ ?_
  intro part hpart
  obtain ⟨l, -, rfl⟩ := List.mem_map.mp hpart
  exact onlyWords_literal l

/-! ## Conditions -/

namespace Condition

/-- True of a condition that says which values it means. -/
def HasOptions : Condition → Prop
  | among _ options => options ≠ []
  | notAmong _ options => options ≠ []
  | _ => True

def conditionWords : List String := ["IS", "NOT", "NULL", "IN", "true", "false"]

theorem onlyWords_tokens (c : Condition) : OnlyWords conditionWords c.tokens := by
  cases c with
  | isNull column => simp [tokens, words, onlyWords_cons, onlyWords_nil, conditionWords]
  | isNotNull column => simp [tokens, words, onlyWords_cons, onlyWords_nil, conditionWords]
  | compare column comparison operand =>
    simp only [tokens, onlyWords_cons, reduceCtorEq, false_implies, implies_true, true_and]
    exact (onlyWords_literal operand).mono (by decide)
  | among column options =>
    have hoptions : OnlyWords conditionWords (tupleTokens options) :=
      (onlyWords_tuple options).mono (by decide)
    simpa [tokens, words, onlyWords_cons, conditionWords] using hoptions
  | notAmong column options =>
    have hoptions : OnlyWords conditionWords (tupleTokens options) :=
      (onlyWords_tuple options).mono (by decide)
    simpa [tokens, words, onlyWords_cons, conditionWords] using hoptions

end Condition

theorem readOptions_tokens (options : List Literal) (h : options ≠ []) :
    readOptions (tupleTokens options) = some options := by
  have hlist := readList_tupleTokens options []
  rw [List.append_nil] at hlist
  obtain ⟨l, ls, rfl⟩ := List.exists_cons_of_ne_nil h
  unfold readOptions
  rw [hlist]
  simpa using mapM_map_eq_some (h := id) readLiteral_tokens (l :: ls)

theorem readCondition_tokens (c : Condition) (h : c.HasOptions) :
    readCondition c.tokens = some c := by
  cases c with
  | isNull column => rfl
  | isNotNull column => rfl
  | compare column comparison operand =>
    simp [Condition.tokens, readCondition, readLiteral_tokens]
  | among column options =>
    simp [Condition.tokens, words, readCondition, readOptions_tokens options h]
  | notAmong column options =>
    simp [Condition.tokens, words, readCondition, readOptions_tokens options h]

theorem mapM_readCondition (conditions : List Condition) (h : ∀ c ∈ conditions, c.HasOptions) :
    (conditions.map Condition.tokens).mapM readCondition = some conditions := by
  induction conditions with
  | nil => rfl
  | cons c cs ih =>
    have hc := readCondition_tokens c (h c List.mem_cons_self)
    have hcs := ih fun d hd => h d (List.mem_cons_of_mem _ hd)
    rw [List.map_cons, List.mapM_cons, hc, hcs]
    rfl

theorem readConditions_tokens (conditions : List Condition) (hne : conditions ≠ [])
    (h : ∀ c ∈ conditions, c.HasOptions) :
    readConditions ([Token.word "AND"].intercalate (conditions.map Condition.tokens)) =
      some conditions := by
  have hand : ∀ part ∈ conditions.map Condition.tokens, Token.word "AND" ∉ part := by
    intro part hpart
    obtain ⟨c, -, rfl⟩ := List.mem_map.mp hpart
    exact c.onlyWords_tokens.notMem "AND" (by decide)
  unfold readConditions
  rw [List.splitOn_intercalate _ hand (by simpa using hne)]
  exact mapM_readCondition conditions h

/-! ## Predicates -/

/-- Nothing, or tokens that begin with the word of a clause. -/
def BeginsClause (ts : List Token) : Prop := ∀ t ∈ ts.head?, isClause t = true

theorem isClause_iff (t : Token) :
    isClause t = true ↔ t = .word "GROUP" ∨ t = .word "ORDER" ∨ t = .word "LIMIT" := by
  simp [isClause, or_assoc]

theorem not_isClause_of_onlyWords (h : OnlyWords ws ts)
    (hws : "GROUP" ∉ ws ∧ "ORDER" ∉ ws ∧ "LIMIT" ∉ ws) :
    ∀ t ∈ ts, (!isClause t) = true := by
  intro t ht
  rw [Bool.not_eq_true', Bool.eq_false_iff, ne_eq, isClause_iff]
  rintro (rfl | rfl | rfl)
  · exact hws.1 (h _ ht)
  · exact hws.2.1 (h _ ht)
  · exact hws.2.2 (h _ ht)

theorem onlyWords_where (conditions : List Condition) :
    OnlyWords ("WHERE" :: "AND" :: Condition.conditionWords) (whereTokens conditions) := by
  unfold whereTokens
  split
  · simp [OnlyWords]
  · rw [onlyWords_append]
    refine ⟨by simp [OnlyWords, words], onlyWords_intercalate _ _ (by simp [OnlyWords]) ?_⟩
    intro part hpart
    obtain ⟨c, -, rfl⟩ := List.mem_map.mp hpart
    exact c.onlyWords_tokens.mono fun w hw => by simp [hw]

theorem takeWhile_where (conditions : List Condition) (tail : List Token)
    (htail : BeginsClause tail) :
    (whereTokens conditions ++ tail).takeWhile (fun t => !isClause t) = whereTokens conditions := by
  have hwhere := not_isClause_of_onlyWords (onlyWords_where conditions) (by decide)
  exact (span_append _ _ tail hwhere fun t ht => by simp [htail t ht]).1

theorem readWhere_tokens (conditions : List Condition) (tail : List Token)
    (htail : BeginsClause tail) (h : ∀ c ∈ conditions, c.HasOptions) :
    readWhere (whereTokens conditions ++ tail) = some conditions := by
  unfold readWhere
  rw [takeWhile_where conditions tail htail]
  unfold whereTokens
  cases conditions with
  | nil => rfl
  | cons c cs => exact readConditions_tokens (c :: cs) (by simp) h

/-! ## Statements -/

namespace Statement

def conditions : Statement → List Condition
  | select s => s.conditions
  | count _ _ conditions => conditions
  | delete _ conditions _ _ => conditions
  | update _ _ conditions _ _ => conditions

def headTokens : Statement → List Token
  | select s =>
    words ["SELECT"] ++ distinctTokens s.distinct ++ columnsTokens s.columns ++ words ["FROM"] ++
      pathTokens s.table
  | count column table _ =>
    words ["SELECT"] ++ countTokens ++ [.name column] ++ words ["FROM"] ++ pathTokens table
  | delete table _ _ _ => words ["DELETE", "FROM"] ++ pathTokens table
  | update table assignments _ _ _ =>
    words ["UPDATE"] ++ pathTokens table ++ words ["SET"] ++
      commaTokens (assignments.map assignmentTokens)

def tailTokens : Statement → List Token
  | select s => groupTokens s.groups ++ orderTokens s.orderings ++ s.window.tokens
  | count _ _ _ => []
  | delete _ _ orderings window => orderTokens orderings ++ window.tokens
  | update _ _ _ orderings window => orderTokens orderings ++ window.tokens

theorem tokens_eq (s : Statement) :
    s.tokens = s.headTokens ++ (whereTokens s.conditions ++ s.tailTokens) := by
  cases s <;> simp [tokens, headTokens, conditions, tailTokens, List.append_assoc]

def headWords : List String :=
  ["SELECT", "DISTINCT", "COUNT", "AS", "FROM", "DELETE", "UPDATE", "SET", "NULL", "true", "false"]

theorem onlyWords_words (vs : List String) (h : ∀ v ∈ vs, v ∈ ws) : OnlyWords ws (words vs) := by
  intro w hw
  obtain ⟨v, hv, heq⟩ := List.mem_map.mp hw
  rw [← Token.word.inj heq]
  exact h v hv

theorem onlyWords_assignments (assignments : List (String × Literal)) :
    OnlyWords headWords (commaTokens (assignments.map assignmentTokens)) := by
  refine onlyWords_intercalate _ _ (by simp [OnlyWords]) ?_
  intro part hpart
  obtain ⟨a, -, rfl⟩ := List.mem_map.mp hpart
  simp only [assignmentTokens, onlyWords_cons, reduceCtorEq, false_implies, implies_true, true_and]
  exact (onlyWords_literal a.2).mono (by decide)

theorem onlyWords_head (s : Statement) : OnlyWords headWords s.headTokens := by
  cases s with
  | select s =>
    have hdistinct : OnlyWords headWords (distinctTokens s.distinct) := by
      cases s.distinct <;> simp [distinctTokens, OnlyWords, words, headWords]
    have hcolumns : OnlyWords headWords (columnsTokens s.columns) := by
      cases s.columns with
      | none => simp [columnsTokens, OnlyWords]
      | some columns => exact onlyWords_names columns
    simp only [headTokens, onlyWords_append]
    exact ⟨⟨⟨⟨onlyWords_words _ (by decide), hdistinct⟩, hcolumns⟩, onlyWords_words _ (by decide)⟩,
      onlyWords_path s.table⟩
  | count column table conditions =>
    have hcount : OnlyWords headWords (words ["SELECT"] ++ countTokens ++ [.name column]) := by
      simp [countTokens, words, OnlyWords, headWords]
    simp only [headTokens]
    rw [onlyWords_append, onlyWords_append]
    exact ⟨⟨hcount, onlyWords_words _ (by decide)⟩, onlyWords_path table⟩
  | delete table conditions orderings window =>
    simp only [headTokens, onlyWords_append]
    exact ⟨onlyWords_words _ (by decide), onlyWords_path table⟩
  | update table assignments conditions orderings window =>
    simp only [headTokens, onlyWords_append]
    exact ⟨⟨⟨onlyWords_words _ (by decide), onlyWords_path table⟩, onlyWords_words _ (by decide)⟩,
      onlyWords_assignments assignments⟩

end Statement

/-! ### The tail of a statement -/

theorem BeginsClause.append (h : BeginsClause ts) (h' : BeginsClause us) :
    BeginsClause (ts ++ us) := by
  cases ts with
  | nil => exact h'
  | cons t ts => exact h

theorem beginsClause_order (orderings : List Ordering) : BeginsClause (orderTokens orderings) := by
  unfold orderTokens
  split <;> simp [BeginsClause, words, isClause]

theorem beginsClause_group (groups : List String) : BeginsClause (groupTokens groups) := by
  unfold groupTokens
  split <;> simp [BeginsClause, words, isClause]

theorem beginsClause_window (w : Window) : BeginsClause w.tokens := by
  cases w <;> simp [BeginsClause, Window.tokens, words, isClause]

namespace Statement

theorem beginsClause_tail (s : Statement) : BeginsClause s.tailTokens := by
  cases s with
  | select s =>
    exact ((beginsClause_group s.groups).append (beginsClause_order s.orderings)).append
      (beginsClause_window s.window)
  | count column table conditions => simp [BeginsClause, tailTokens]
  | delete table conditions orderings window =>
    exact (beginsClause_order orderings).append (beginsClause_window window)
  | update table assignments conditions orderings window =>
    exact (beginsClause_order orderings).append (beginsClause_window window)

end Statement

namespace Statement

theorem head?_where (conditions : List Condition) (tail : List Token) (htail : BeginsClause tail) :
    ∀ t ∈ (whereTokens conditions ++ tail).head?, t = .word "WHERE" ∨ isClause t = true := by
  unfold whereTokens
  split
  · exact fun t ht => Or.inr (htail t ht)
  · intro t ht
    exact Or.inl (Option.some.inj ht).symm

theorem afterRows_tokens (s : Statement) :
    afterRows s.tokens = whereTokens s.conditions ++ s.tailTokens := by
  have hhead : ∀ t ∈ s.headTokens, (!(t == Token.word "WHERE" || isClause t)) = true := by
    intro t ht
    have hwhere : t ≠ .word "WHERE" := by
      rintro rfl
      exact s.onlyWords_head.notMem "WHERE" (by decide) ht
    have hclause := not_isClause_of_onlyWords s.onlyWords_head (by decide) t ht
    simp_all
  have hrest := head?_where s.conditions s.tailTokens s.beginsClause_tail
  unfold afterRows
  rw [s.tokens_eq]
  refine (span_append _ _ _ hhead fun t ht => ?_).2
  rcases hrest t ht with rfl | hclause
  · rfl
  · simp [hclause]

theorem predicateTokens_tokens (s : Statement) :
    predicateTokens s.tokens = whereTokens s.conditions := by
  unfold predicateTokens
  rw [s.afterRows_tokens]
  exact takeWhile_where s.conditions s.tailTokens s.beginsClause_tail

theorem readPredicate_tokens (s : Statement) (h : ∀ c ∈ s.conditions, c.HasOptions) :
    readPredicate s.tokens = some s.conditions := by
  unfold readPredicate
  rw [s.afterRows_tokens]
  exact readWhere_tokens s.conditions s.tailTokens s.beginsClause_tail h

end Statement

end RowStore.Sql
