import RowStore.Proofs.Sql.Bound
import RowStore.Proofs.Sql.Predicate

/-!
# Commands on a table of keys

What a server reads of the statements of a key-value store: a command, and the path of the table it
is for. Texts that say anything else are no commands.
-/

namespace RowStore

open Sql (Condition Token words pathTokens pathNames nameTokens namesTokens commaTokens)

def Sql.Condition.column : Condition → String
  | .isNull column => column
  | .isNotNull column => column
  | .compare column _ _ => column
  | .among column _ => column
  | .notAmong column _ => column

/-- A command on a table with the columns `id` and `v`. -/
inductive KeyCommand where
  | drop
  | create
  | replace (key : String) (value : List UInt8)
  | delete (conditions : List Condition)
  | select (columns : List String) (conditions : List Condition) (limit : Option Nat)
  /-- The number of rows, in a column of its own. -/
  | count (column : String) (conditions : List Condition)

namespace KeyCommand

/-! ## Reading -/

/-- Names with a point between them, and what follows them. -/
def readPath : List Token → Option (List String × List Token)
  | .name name :: .mark '.' :: rest => (readPath rest).map fun (names, after) => (name :: names, after)
  | .name name :: after => some ([name], after)
  | _ => none

/-- The columns of a new table, with their types. -/
def definitionTokens : List Token :=
  [.mark '(', .name "id", .word "VARCHAR", .mark '(', .number "64", .mark ')', .word "PRIMARY",
    .word "KEY", .mark ',', .name "v", .word "LONGBLOB", .word "NOT", .word "NULL", .mark ')']

def readLimit : List Token → Option (Option Nat)
  | [] => some none
  | [.word "LIMIT", .number digits] => some (some (Nat.ofDigitChars 10 digits.toList 0))
  | _ => none

/-- A path with nothing behind it. -/
def readPathOnly (ts : List Token) : Option (List String) :=
  match readPath ts with
  | some (path, []) => some path
  | _ => none

/-- A path with the conditions and the limit behind it. -/
def readRows (ts : List Token) : Option (List String × List Condition × Option Nat) := do
  let (path, after) ← readPath ts
  let conditions ← Sql.readWhere after
  let limit ← readLimit (after.dropWhile fun t => !Sql.isClause t)
  return (path, conditions, limit)

def readReplace (ts : List Token) : Option (List String × KeyCommand) :=
  match Sql.readInsert ts with
  | some ⟨_, path, ["id", "v"], [[.string key, .binary value]]⟩ => some (path, replace key value)
  | _ => none

def readDelete (ts : List Token) : Option (List String × KeyCommand) :=
  match readRows ts with
  | some (path, conditions, none) => some (path, delete conditions)
  | _ => none

def readCreate (ts : List Token) : Option (List String × KeyCommand) :=
  match readPath ts with
  | some (path, after) => if after = definitionTokens then some (path, create) else none
  | none => none

def readCount (column : String) (ts : List Token) : Option (List String × KeyCommand) :=
  match readRows ts with
  | some (path, conditions, none) => some (path, count column conditions)
  | _ => none

def readSelect (ts : List Token) : Option (List String × KeyCommand) := do
  let columns ← (Sql.commaParts (ts.takeWhile (· != .word "FROM"))).mapM Sql.readNameToken
  let (path, conditions, limit) ← readRows (ts.dropWhile (· != .word "FROM")).tail
  return (path, select columns conditions limit)

def ofTokens : List Token → Option (List String × KeyCommand)
  | .word "DROP" :: .word "TABLE" :: .word "IF" :: .word "EXISTS" :: ts =>
    (readPathOnly ts).map fun path => (path, drop)
  | .word "CREATE" :: .word "TABLE" :: ts => readCreate ts
  | .word "REPLACE" :: ts => readReplace (.word "REPLACE" :: ts)
  | .word "DELETE" :: .word "FROM" :: ts => readDelete ts
  | .word "SELECT" :: .word "COUNT" :: .mark '(' :: .mark '*' :: .mark ')' :: .word "AS" ::
      .name column :: .word "FROM" :: ts => readCount column ts
  | .word "SELECT" :: ts => readSelect ts
  | _ => none

/-- The command in a text, with the values that are bound to it. -/
def read (sql : String) (params : List Value) : Option (List String × KeyCommand) :=
  (Sql.tokenizeBound params sql.toList).bind ofTokens

/-- The columns that a command looks at. -/
def columns : KeyCommand → List String
  | select columns conditions _ => columns ++ conditions.map Condition.column
  | delete conditions => conditions.map Condition.column
  | count _ conditions => conditions.map Condition.column
  | _ => []

/-! ## Paths, rows and limits -/

theorem readPath_names (names : List String) (rest : List Token) (hne : names ≠ [])
    (hrest : rest.head? ≠ some (.mark '.')) :
    readPath ([Token.mark '.'].intercalate (names.map nameTokens) ++ rest) = some (names, rest) := by
  induction names with
  | nil => exact absurd rfl hne
  | cons name names ih =>
    cases names with
    | nil =>
      rw [List.map_singleton, List.intercalate_singleton, nameTokens, List.singleton_append,
        readPath]
      rintro more rfl
      exact hrest rfl
    | cons next names =>
      have htail := ih (by simp)
      simp only [List.map_cons, List.intercalate_cons_cons, nameTokens, List.cons_append,
        List.nil_append] at htail ⊢
      rw [readPath, htail]
      rfl

theorem readPath_path (table : String) (rest : List Token) (hrest : rest.head? ≠ some (.mark '.')) :
    readPath (pathTokens table ++ rest) = some (pathNames table, rest) :=
  readPath_names _ rest (by simpa [pathNames] using Sql.segments_ne_nil table.toList) hrest

/-- The window of a statement with a limit or without one. -/
def window : Option Nat → Sql.Window
  | none => .all
  | some n => .first n

theorem readLimit_tokens (limit : Option Nat) : readLimit (window limit).tokens = some limit := by
  cases limit with
  | none => rfl
  | some n =>
    have hdigits : Nat.ofDigitChars 10 (natText n).toList 0 = n := by
      rw [natText, String.toList_ofList]
      exact Nat.ofDigitChars_ten_toDigits
    simp [window, Sql.Window.tokens, words, readLimit, hdigits]

theorem readRows_tokens (table : String) (conditions : List Condition) (limit : Option Nat)
    (h : ∀ c ∈ conditions, c.HasOptions) :
    readRows (pathTokens table ++ (Sql.whereTokens conditions ++ (window limit).tokens)) =
      some (pathNames table, conditions, limit) := by
  have hclause := Sql.beginsClause_window (window limit)
  have hdrop : (Sql.whereTokens conditions ++ (window limit).tokens).dropWhile
      (fun t => !Sql.isClause t) = (window limit).tokens :=
    (span_append _ _ _ (Sql.not_isClause_of_onlyWords (Sql.onlyWords_where conditions)
      (by decide)) fun t ht => by simp [hclause t ht]).2
  have hpoint : (Sql.whereTokens conditions ++ (window limit).tokens).head? ≠
      some (.mark '.') := by
    cases conditions <;> cases limit <;> simp [Sql.whereTokens, words, window, Sql.Window.tokens]
  simp only [readRows, Option.bind_eq_bind, readPath_path table _ hpoint, Option.bind_some,
    Sql.readWhere_tokens conditions _ hclause h, hdrop, readLimit_tokens]
  rfl

theorem readSelect_tokens (table : String) (conditions : List Condition)
    (h : ∀ c ∈ conditions, c.HasOptions) (columns : List String) (limit : Option Nat) :
    readSelect (namesTokens columns ++ .word "FROM" :: (pathTokens table ++
        (Sql.whereTokens conditions ++ (window limit).tokens))) =
      some (pathNames table, select columns conditions limit) := by
  have honly : Sql.OnlyWords [] (namesTokens columns) := Sql.onlyWords_names columns
  have hnames : ∀ t ∈ namesTokens columns, (t != Token.word "FROM") = true := by
    intro t ht
    rw [bne_iff_ne]
    rintro rfl
    exact honly.notMem "FROM" (by simp) ht
  obtain ⟨htake, hdrop⟩ := span_append (fun t => t != Token.word "FROM") (namesTokens columns)
    (.word "FROM" :: (pathTokens table ++ (Sql.whereTokens conditions ++ (window limit).tokens)))
    hnames (by simp)
  have hparts : (Sql.commaParts (namesTokens columns)).mapM Sql.readNameToken = some columns := by
    rw [namesTokens, Sql.commaParts_commaTokens _ (Sql.isPart_of_mem_names columns),
      Sql.readNameTokens]
  rw [readSelect, htake, hdrop, hparts, List.tail_cons, readRows_tokens table conditions limit h]
  rfl

/-! ## Statements -/

theorem read_statement (s : Sql.Statement) (h : ∀ l ∈ s.literals, l.Readable) :
    read s.text [] = ofTokens s.tokens := by
  rw [read, Sql.tokenizeBound_nil, (s.reads_text h).tokenize_eq, Option.bind_some]

section

variable (table : String) {conditions : List Condition}
variable (hreadable : ∀ l ∈ conditions.flatMap Condition.literals, l.Readable)
variable (hoptions : ∀ c ∈ conditions, c.HasOptions)
include hreadable hoptions

theorem read_select (columns : List String) (hne : columns ≠ []) (limit : Option Nat) :
    read (Sql.Statement.select ⟨false, some columns, table, conditions, [], [],
        window limit⟩).text [] =
      some (pathNames table, select columns conditions limit) := by
  have hselect := readSelect_tokens table conditions hoptions columns limit
  obtain ⟨name, names, rfl⟩ := List.exists_cons_of_ne_nil hne
  have htokens : (Sql.Statement.select ⟨false, some (name :: names), table, conditions, [], [],
      window limit⟩).tokens = .word "SELECT" :: (namesTokens (name :: names) ++
        .word "FROM" :: (pathTokens table ++ (Sql.whereTokens conditions ++
          (window limit).tokens))) := by
    simp [Sql.Statement.tokens, Sql.distinctTokens, Sql.columnsTokens, words, Sql.groupTokens,
      Sql.orderTokens]
  rw [read_statement (.select ⟨false, some (name :: names), table, conditions, [], [],
    window limit⟩) hreadable, htokens, ← hselect]
  cases names <;> rfl

theorem read_count (column : String) :
    read (Sql.Statement.count column table conditions).text [] =
      some (pathNames table, count column conditions) := by
  have hrows := readRows_tokens table conditions none hoptions
  have htokens : (Sql.Statement.count column table conditions).tokens = .word "SELECT" ::
      .word "COUNT" :: .mark '(' :: .mark '*' :: .mark ')' :: .word "AS" :: .name column ::
        .word "FROM" :: (pathTokens table ++ (Sql.whereTokens conditions ++
          (window none).tokens)) := by
    simp [Sql.Statement.tokens, Sql.countTokens, words, window, Sql.Window.tokens]
  rw [read_statement (.count column table conditions) hreadable, htokens]
  change readCount column _ = _
  rw [readCount, hrows]

theorem read_delete :
    read (Sql.Statement.delete table conditions [] .all).text [] =
      some (pathNames table, delete conditions) := by
  have hrows := readRows_tokens table conditions none hoptions
  have htokens : (Sql.Statement.delete table conditions [] .all).tokens = .word "DELETE" ::
      .word "FROM" :: (pathTokens table ++ (Sql.whereTokens conditions ++
        (window none).tokens)) := by
    simp [Sql.Statement.tokens, words, Sql.orderTokens, window]
  rw [read_statement (.delete table conditions [] .all) hreadable, htokens]
  change readDelete _ = _
  rw [readDelete, hrows]

end

theorem read_drop (table : String) :
    read ("DROP TABLE IF EXISTS " ++ Sql.quotePath table) [] = some (pathNames table, drop) := by
  have htokens := ((Sql.ends_words ["DROP", "TABLE", "IF", "EXISTS"] (by decide)).append_reads
    (Sql.reads_quotePath table)).tokenize_eq
  have hpath := readPath_path table [] (by simp)
  have htext : ("DROP TABLE IF EXISTS " ++ Sql.quotePath table).toList =
      Sql.wordsChars ["DROP", "TABLE", "IF", "EXISTS"] ++ (Sql.quotePath table).toList := by
    simp [Sql.wordsChars]
  rw [List.append_nil] at hpath
  rw [read, Sql.tokenizeBound_nil, htext, htokens, Option.bind_some]
  change (readPathOnly (pathTokens table)).map _ = _
  rw [readPathOnly, hpath]
  rfl

theorem reads_definition :
    Sql.Reads " (`id` VARCHAR(64) PRIMARY KEY, `v` LONGBLOB NOT NULL)".toList definitionTokens := by
  have hopen : Sql.Ends " (".toList [.mark '('] :=
    Sql.ends_blank.append (Sql.ends_mark '(' (by simp))
  have hid : Sql.Ends "`id` ".toList [.name "id"] :=
    (Sql.reads_quoteName "id").phrase [] (by simp)
  have htype : Sql.Ends "VARCHAR(".toList [.word "VARCHAR", .mark '('] :=
    (Sql.reads_word "VARCHAR" (by decide)).append_ends (by simp) (Sql.stops_cons '(' [] (by simp))
      (Sql.ends_mark '(' (by simp))
  have hwidth : Sql.Ends "64) ".toList [.number "64", .mark ')'] :=
    (Sql.reads_natText 64).append_ends (by simp) (Sql.stops_cons ')' _ (by simp))
      ((Sql.ends_mark ')' (by simp)).append Sql.ends_blank)
  have hkey : Sql.Ends "PRIMARY KEY, ".toList [.word "PRIMARY", .word "KEY", .mark ','] :=
    (Sql.ends_words ["PRIMARY"] (by decide)).append ((Sql.reads_word "KEY" (by decide)).append_ends
      (by simp) (Sql.stops_cons ',' _ (by simp)) Sql.ends_comma)
  have hv : Sql.Ends "`v` LONGBLOB NOT ".toList [.name "v", .word "LONGBLOB", .word "NOT"] :=
    (Sql.reads_quoteName "v").phrase ["LONGBLOB", "NOT"] (by decide)
  have hnull : Sql.Ends "NULL)".toList [.word "NULL", .mark ')'] :=
    (Sql.reads_word "NULL" (by decide)).append_ends (by simp) (Sql.stops_cons ')' [] (by simp))
      (Sql.ends_mark ')' (by simp))
  exact (hopen.append (hid.append (htype.append (hwidth.append (hkey.append
    (hv.append hnull)))))).reads

theorem read_create (table : String) :
    read ("CREATE TABLE " ++ Sql.quotePath table ++
        " (`id` VARCHAR(64) PRIMARY KEY, `v` LONGBLOB NOT NULL)") [] =
      some (pathNames table, create) := by
  have hstops : Sql.Stops " (`id` VARCHAR(64) PRIMARY KEY, `v` LONGBLOB NOT NULL)".toList :=
    Sql.stops_cons ' ' _ (by simp)
  have htokens := ((Sql.ends_words ["CREATE", "TABLE"] (by decide)).append_reads
    ((Sql.reads_quotePath table).append hstops reads_definition)).tokenize_eq
  have hpath := readPath_path table definitionTokens (by simp [definitionTokens])
  have htext : ("CREATE TABLE " ++ Sql.quotePath table ++
      " (`id` VARCHAR(64) PRIMARY KEY, `v` LONGBLOB NOT NULL)").toList =
      Sql.wordsChars ["CREATE", "TABLE"] ++ ((Sql.quotePath table).toList ++
        " (`id` VARCHAR(64) PRIMARY KEY, `v` LONGBLOB NOT NULL)".toList) := by
    simp [Sql.wordsChars]
  rw [read, Sql.tokenizeBound_nil, htext, htokens, Option.bind_some]
  change readCreate (pathTokens table ++ definitionTokens) = _
  rw [readCreate, hpath]
  exact if_pos rfl

theorem read_replace (table key : String) (value : List UInt8) :
    read ("REPLACE INTO " ++ Sql.quotePath table ++ " (`id`, `v`) VALUES (?, ?)")
        [.text key, .blob value] = some (pathNames table, replace key value) := by
  let i : Sql.Insert := ⟨"REPLACE", pathNames table, ["id", "v"], [[.string key, .binary value]]⟩
  have hread : Sql.readInsert i.tokens = some i :=
    Sql.readInsert_tokens i (by simpa [i, pathNames] using Sql.segments_ne_nil table.toList)
      (by simp [i])
  have hverb : ofTokens i.tokens = readReplace i.tokens := rfl
  rw [read, Sql.tokenizeBound_replace, Option.bind_some, hverb, readReplace, hread]
  rfl

end KeyCommand

end RowStore
