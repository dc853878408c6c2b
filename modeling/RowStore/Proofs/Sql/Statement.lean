import RowStore.Proofs.Sql.Joined
import RowStore.Sql.Statement

/-!
# The tokens of a statement

What a server reads of a statement is what the statement is made of: its words, its names as they
are, and one literal for each value. The text in a name or in a string is never read as SQL.
-/

namespace RowStore.Sql

/-! ## Literals -/

namespace Literal

def tokens : Literal → List Token
  | null => [.word "NULL"]
  | bool b => [.word (if b then "true" else "false")]
  | number digits => numberTokens digits
  | string s => [.string s]
  | binary content => [.binary content]

/-- True of a literal whose number, if it is one, has the text of a number. -/
def Readable : Literal → Prop
  | number digits => IsSignedNumeral digits.toList
  | _ => True

theorem reads_text (l : Literal) (h : l.Readable) : Reads l.text.toList l.tokens := by
  cases l with
  | null => exact reads_word "NULL" (by decide)
  | bool b =>
    cases b with
    | false => exact reads_word "false" (by decide)
    | true => exact reads_word "true" (by decide)
  | number digits => exact reads_number digits h
  | string s => exact reads_quoteString s
  | binary content => exact reads_binary content

end Literal

theorem readable_literal (v : Value) : v.literal.Readable := by
  cases v with
  | int n => exact isSignedNumeral_intText n.toInt
  | float x =>
    rw [Value.literal]
    split
    · exact isSignedNumeral_float .sql x
    · trivial
  | json j =>
    cases j with
    | number n => exact isSignedNumeral_json n
    | _ => trivial
  | _ => trivial

theorem readable_of_mem_literals (vs : List Value) :
    ∀ l ∈ vs.map Value.literal, l.Readable := by
  intro l hl
  obtain ⟨v, -, rfl⟩ := List.mem_map.mp hl
  exact readable_literal v

/-! ## Lists -/

def commaTokens (parts : List (List Token)) : List Token := [Token.mark ','].intercalate parts

/-- Parts in parentheses, with a comma between them. -/
def listTokens (parts : List (List Token)) : List Token :=
  [.mark '('] ++ commaTokens parts ++ [.mark ')']

def namesTokens (names : List String) : List Token := commaTokens (names.map nameTokens)

def tupleTokens (literals : List Literal) : List Token := listTokens (literals.map Literal.tokens)

theorem ends_comma : Ends ", ".toList [.mark ','] := (ends_mark ',' (by simp)).append ends_blank

theorem ends_and : Ends " AND ".toList [.word "AND"] := ends_phrase ["AND"] (by decide)

theorem reads_comma {α : Type} (text : α → String) (tokens : α → List Token) (xs : List α)
    (h : ∀ x ∈ xs, Reads (text x).toList (tokens x)) :
    Reads (", ".intercalate (xs.map text)).toList (commaTokens (xs.map tokens)) := by
  rw [String.toList_intercalate, List.map_map]
  exact reads_intercalate _ _ _ _ (by decide) (stops_cons ',' _ (by simp)) ends_comma xs h

theorem reads_names (names : List String) :
    Reads (namesText names).toList (namesTokens names) :=
  reads_comma _ _ names fun name _ => reads_quoteName name

theorem ends_tuple (literals : List Literal) (h : ∀ l ∈ literals, l.Readable) :
    Ends (Literal.tupleText literals).toList (tupleTokens literals) := by
  have hlist := reads_comma Literal.text Literal.tokens literals fun l hl =>
    l.reads_text (h l hl)
  have hclosed := hlist.append_ends (by simp) (stops_cons ')' [] (by simp))
    (ends_mark ')' (by simp))
  simpa [Literal.tupleText, tupleTokens, listTokens] using
    (ends_mark '(' (by simp)).append hclosed

/-! ## Conditions -/

namespace Condition

def tokens : Condition → List Token
  | isNull column => .name column :: words ["IS", "NULL"]
  | isNotNull column => .name column :: words ["IS", "NOT", "NULL"]
  | compare column comparison operand => .name column :: .comparison comparison :: operand.tokens
  | among column options => .name column :: words ["IN"] ++ tupleTokens options
  | notAmong column options => .name column :: words ["NOT", "IN"] ++ tupleTokens options

def literals : Condition → List Literal
  | isNull _ => []
  | isNotNull _ => []
  | compare _ _ operand => [operand]
  | among _ options => options
  | notAmong _ options => options

theorem reads_text (c : Condition) (h : ∀ l ∈ c.literals, l.Readable) :
    Reads c.text.toList c.tokens := by
  cases c with
  | isNull column =>
    have hname := (reads_quoteName column).phrase ["IS"] (by decide)
    simpa [text, tokens, words, wordsChars] using hname.append_reads (reads_word "NULL" (by decide))
  | isNotNull column =>
    have hname := (reads_quoteName column).phrase ["IS", "NOT"] (by decide)
    simpa [text, tokens, words, wordsChars] using hname.append_reads (reads_word "NULL" (by decide))
  | compare column comparison operand =>
    have hname := (reads_quoteName column).phrase [] (by simp)
    have hoperand := operand.reads_text (h operand (by simp [literals]))
    simpa [text, tokens, words, wordsChars] using
      hname.append_reads ((ends_comparison comparison).append_reads hoperand)
  | among column options =>
    have hname := (reads_quoteName column).phrase ["IN"] (by decide)
    simpa [text, tokens, words, wordsChars] using hname.append_reads (ends_tuple options h).reads
  | notAmong column options =>
    have hname := (reads_quoteName column).phrase ["NOT", "IN"] (by decide)
    simpa [text, tokens, words, wordsChars] using hname.append_reads (ends_tuple options h).reads

end Condition

def whereTokens (conditions : List Condition) : List Token :=
  if conditions.isEmpty then []
  else words ["WHERE"] ++ [Token.word "AND"].intercalate (conditions.map Condition.tokens)

theorem follows_where (conditions : List Condition)
    (h : ∀ c ∈ conditions, ∀ l ∈ c.literals, l.Readable) :
    Follows (whereText conditions).toList (whereTokens conditions) := by
  unfold whereText whereTokens
  split
  · exact follows_nil
  · have hlist : Reads (" AND ".intercalate (conditions.map Condition.text)).toList
        ([Token.word "AND"].intercalate (conditions.map Condition.tokens)) := by
      rw [String.toList_intercalate, List.map_map]
      exact reads_intercalate _ _ _ _ (by decide) (stops_cons ' ' _ (by simp)) ends_and
        conditions fun c hc => c.reads_text (h c hc)
    rw [String.toList_append]
    exact follows_phrase ["WHERE"] (by decide) hlist

/-! ## Groups, order and window -/

def groupTokens (groups : List String) : List Token :=
  if groups.isEmpty then [] else words ["GROUP", "BY"] ++ namesTokens groups

def Ordering.tokens (o : Ordering) : List Token :=
  [.name o.column, .word (if o.descending then "DESC" else "ASC")]

def orderTokens (orderings : List Ordering) : List Token :=
  if orderings.isEmpty then []
  else words ["ORDER", "BY"] ++ commaTokens (orderings.map Ordering.tokens)

def Window.tokens : Window → List Token
  | all => []
  | first limit => words ["LIMIT"] ++ [.number (natText limit)]
  | slice limit offset =>
    words ["LIMIT"] ++ [.number (natText limit)] ++ words ["OFFSET"] ++ [.number (natText offset)]

theorem follows_group (groups : List String) :
    Follows (groupText groups).toList (groupTokens groups) := by
  unfold groupText groupTokens
  split
  · exact follows_nil
  · rw [String.toList_append]
    exact follows_phrase ["GROUP", "BY"] (by decide) (reads_names groups)

theorem Ordering.reads_text (o : Ordering) : Reads o.text.toList o.tokens := by
  have hname := (reads_quoteName o.column).phrase [] (by simp)
  unfold Ordering.text Ordering.tokens
  cases o.descending with
  | false => simpa [words, wordsChars] using hname.append_reads (reads_word "ASC" (by decide))
  | true => simpa [words, wordsChars] using hname.append_reads (reads_word "DESC" (by decide))

theorem follows_order (orderings : List Ordering) :
    Follows (orderText orderings).toList (orderTokens orderings) := by
  unfold orderText orderTokens
  split
  · exact follows_nil
  · rw [String.toList_append]
    exact follows_phrase ["ORDER", "BY"] (by decide)
      (reads_comma _ _ orderings fun o _ => o.reads_text)

theorem reads_natText (n : Nat) : Reads (natText n).toList [.number (natText n)] := by
  simpa using reads_numeral (natText n).toList (isNumeral_natText n)

theorem Window.follows_text (w : Window) : Follows w.text.toList w.tokens := by
  cases w with
  | all => exact follows_nil
  | first limit =>
    have h := follows_phrase ["LIMIT"] (by decide) (reads_natText limit)
    simpa [Window.text, Window.tokens, wordsChars] using h
  | slice limit offset =>
    have hoffset := ((reads_natText limit).phrase ["OFFSET"] (by decide)).append_reads
      (reads_natText offset)
    have h := follows_phrase ["LIMIT"] (by decide) hoffset
    simpa [Window.text, Window.tokens, wordsChars] using h

/-! ## Statements -/

def assignmentTokens (a : String × Literal) : List Token :=
  .name a.1 :: .comparison .eq :: a.2.tokens

theorem reads_assignment (a : String × Literal) (h : a.2.Readable) :
    Reads (assignmentText a).toList (assignmentTokens a) := by
  have hname := (reads_quoteName a.1).phrase [] (by simp)
  have hvalue := (ends_comparison .eq).append_reads (a.2.reads_text h)
  simpa [assignmentText, assignmentTokens, words, wordsChars, Comparison.text] using
    hname.append_reads hvalue

def columnsTokens : Option (List String) → List Token
  | none => [.mark '*']
  | some columns => namesTokens columns

def distinctTokens (distinct : Bool) : List Token := if distinct then words ["DISTINCT"] else []

/-- The number of rows, and the word before its column. -/
def countTokens : List Token :=
  words ["COUNT"] ++ [.mark '('] ++ [.mark '*'] ++ [.mark ')'] ++ words ["AS"]

namespace Statement

def tokens : Statement → List Token
  | select s =>
    words ["SELECT"] ++ distinctTokens s.distinct ++ columnsTokens s.columns ++ words ["FROM"] ++
      pathTokens s.table ++ whereTokens s.conditions ++ groupTokens s.groups ++
      orderTokens s.orderings ++ s.window.tokens
  | count column table conditions =>
    words ["SELECT"] ++ countTokens ++ [.name column] ++ words ["FROM"] ++ pathTokens table ++
      whereTokens conditions
  | delete table conditions orderings window =>
    words ["DELETE", "FROM"] ++ pathTokens table ++ whereTokens conditions ++
      orderTokens orderings ++ window.tokens
  | update table assignments conditions orderings window =>
    words ["UPDATE"] ++ pathTokens table ++ words ["SET"] ++
      commaTokens (assignments.map assignmentTokens) ++ whereTokens conditions ++
      orderTokens orderings ++ window.tokens

def literals : Statement → List Literal
  | select s => s.conditions.flatMap Condition.literals
  | count _ _ conditions => conditions.flatMap Condition.literals
  | delete _ conditions _ _ => conditions.flatMap Condition.literals
  | update _ assignments conditions _ _ =>
    assignments.map (·.2) ++ conditions.flatMap Condition.literals

theorem ends_distinct (distinct : Bool) :
    Ends (if distinct then "DISTINCT " else "").toList (distinctTokens distinct) := by
  cases distinct with
  | false => exact ends_nil
  | true => exact ends_words ["DISTINCT"] (by decide)

theorem reads_columns (columns : Option (List String)) :
    Reads (match columns with
      | none => "*"
      | some columns => namesText columns).toList (columnsTokens columns) := by
  cases columns with
  | none => exact (ends_mark '*' (by simp)).reads
  | some columns => exact reads_names columns

theorem ends_count : Ends "SELECT COUNT(*) AS ".toList (words ["SELECT"] ++ countTokens) := by
  have hcount := (reads_word "COUNT" (by decide)).append_ends (by simp)
    (stops_cons '(' [] (by simp)) (ends_mark '(' (by simp))
  have hstar := (hcount.append (ends_mark '*' (by simp))).append (ends_mark ')' (by simp))
  exact (ends_words ["SELECT"] (by decide)).append (hstar.append (ends_phrase ["AS"] (by decide)))

section

variable {conditions : List Condition}
variable (h : ∀ l ∈ conditions.flatMap Condition.literals, l.Readable)
include h

theorem follows_conditions : Follows (whereText conditions).toList (whereTokens conditions) :=
  follows_where conditions fun c hc l hl => h l (List.mem_flatMap.mpr ⟨c, hc, hl⟩)

theorem follows_change (orderings : List Ordering) (window : Window) :
    Follows ((whereText conditions).toList ++ (orderText orderings).toList ++ window.text.toList)
      (whereTokens conditions ++ orderTokens orderings ++ window.tokens) :=
  ((follows_conditions h).append (follows_order orderings)).append window.follows_text

theorem reads_count (column table : String) :
    Reads (count column table conditions).text.toList (count column table conditions).tokens := by
  have hafter := (reads_quotePath table).append_follows (follows_conditions h)
  have hname := ((reads_quoteName column).phrase ["FROM"] (by decide)).append_reads hafter
  have hall := ends_count.append_reads hname
  unfold text tokens
  simp only [String.toList_append, List.append_assoc] at hall ⊢
  exact hall

theorem reads_delete (table : String) (orderings : List Ordering) (window : Window) :
    Reads (delete table conditions orderings window).text.toList
      (delete table conditions orderings window).tokens := by
  have hafter := (reads_quotePath table).append_follows (follows_change h orderings window)
  have hall := (ends_words ["DELETE", "FROM"] (by decide)).append_reads hafter
  unfold text tokens
  simp only [String.toList_append, List.append_assoc] at hall ⊢
  exact hall

theorem reads_update (table : String) (assignments : List (String × Literal))
    (hvalues : ∀ a ∈ assignments, a.2.Readable) (orderings : List Ordering) (window : Window) :
    Reads (update table assignments conditions orderings window).text.toList
      (update table assignments conditions orderings window).tokens := by
  have hassignments := reads_comma assignmentText assignmentTokens assignments fun a ha =>
    reads_assignment a (hvalues a ha)
  have hafter := hassignments.append_follows (follows_change h orderings window)
  have htable := ((reads_quotePath table).phrase ["SET"] (by decide)).append_reads hafter
  have hall := (ends_words ["UPDATE"] (by decide)).append_reads htable
  unfold text tokens commaText
  simp only [String.toList_append, List.append_assoc] at hall ⊢
  exact hall

end

theorem reads_select (s : Select)
    (h : ∀ l ∈ s.conditions.flatMap Condition.literals, l.Readable) :
    Reads (select s).text.toList (select s).tokens := by
  have hrows := ((follows_conditions h).append (follows_group s.groups)).append
    ((follows_order s.orderings).append s.window.follows_text)
  have hafter := (reads_quotePath s.table).append_follows hrows
  have hcolumns := ((reads_columns s.columns).phrase ["FROM"] (by decide)).append_reads hafter
  have hall := ((ends_words ["SELECT"] (by decide)).append (ends_distinct s.distinct)).append_reads
    hcolumns
  unfold text Select.text tokens
  simp only [String.toList_append, List.append_assoc] at hall ⊢
  exact hall

theorem reads_text (s : Statement) (h : ∀ l ∈ s.literals, l.Readable) :
    Reads s.text.toList s.tokens := by
  cases s with
  | select s => exact reads_select s h
  | count column table conditions => exact reads_count h column table
  | delete table conditions orderings window => exact reads_delete h table orderings window
  | update table assignments conditions orderings window =>
    refine reads_update (fun l hl => h l (List.mem_append_right _ hl)) table assignments ?_ _ _
    exact fun a ha => h a.2 (List.mem_append_left _ (List.mem_map_of_mem ha))

end Statement

end RowStore.Sql
