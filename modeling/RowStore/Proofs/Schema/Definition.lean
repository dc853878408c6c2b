import RowStore.Proofs.Keys.Command
import RowStore.Proofs.Schema.DeclaredType
import RowStore.Schema.Definition

/-!
# Reading a definition back

A definition says the path of a table, its columns, the column that is its key, and its engine. All
of it can be read back from the tokens, whatever stands in the quoted names.
-/

namespace RowStore

open Text (digitsValue)

namespace Sql

structure DefinedColumn where
  name : String
  declared : DeclaredType
  nullable : Bool
  deriving DecidableEq

structure DefinedTable where
  path : List String
  columns : List DefinedColumn
  key : String
  engine : String
  deriving DecidableEq

/-! ## Reading -/

/-- A name may stand without quotes. -/
def readColumnName : Token → Option String
  | .name name => some name
  | .word letters => some letters
  | _ => none

/-- The word before `NULL`. A column that is null by default may be null. -/
def readNullable : String → Option Bool
  | "NOT" => some false
  | "DEFAULT" => some true
  | _ => none

def readColumn (name : Token) (declared : DeclaredType) (option : String) :
    Option DefinedColumn := do
  return ⟨← readColumnName name, declared, ← readNullable option⟩

/-- Columns with a comma behind each, and what follows the last of them. -/
def readColumns : List Token → Option (List DefinedColumn × List Token)
  | name :: .word base :: .mark '(' :: .number digits :: .mark ')' :: .word option ::
      .word "NULL" :: .mark ',' :: rest => do
    let column ← readColumn name ⟨base, some (digitsValue digits.toList)⟩ option
    let (columns, after) ← readColumns rest
    return (column :: columns, after)
  | name :: .word base :: .word option :: .word "NULL" :: .mark ',' :: rest => do
    let column ← readColumn name ⟨base, none⟩ option
    let (columns, after) ← readColumns rest
    return (column :: columns, after)
  | rest => some ([], rest)

/-- The key, the end of the columns, and the engine. -/
def readKeyAndEngine : List Token → Option (String × String)
  | [.word "PRIMARY", .word "KEY", .mark '(', key, .mark ')', .mark ')', .word "ENGINE",
      .comparison .eq, .word engine] => (readColumnName key).map fun key => (key, engine)
  | _ => none

def readTable : List Token → Option DefinedTable
  | .word "CREATE" :: .word "TABLE" :: ts => do
    let (path, after) ← KeyCommand.readPath ts
    match after with
    | .mark '(' :: inner => do
      let (columns, after) ← readColumns inner
      let (key, engine) ← readKeyAndEngine after
      return ⟨path, columns, key, engine⟩
    | _ => none
  | _ => none

def readDefinition (sql : String) : Option DefinedTable := (tokenize sql.toList).bind readTable

end Sql

/-! ## Columns -/

open Sql

namespace DeclaredType

def tokens (t : DeclaredType) : List Token :=
  .word t.base :: match t.width with
    | none => []
    | some n => [.mark '(', .number (natText n), .mark ')']

theorem reads_text (t : DeclaredType) (h : isLetters t.base.toList = true) :
    Reads t.text.toList t.tokens := by
  have hword := reads_word t.base h
  obtain ⟨base, width⟩ := t
  cases width with
  | none => simpa [text, tokens, widthChars] using hword
  | some n =>
    have hdigits := (reads_natText n).append_ends (by simp) (stops_cons ')' [] (by simp))
      (ends_mark ')' (by simp))
    have hwidth := (ends_mark '(' (by simp)).append hdigits
    have hall := hword.append_ends (by simp) (stops_cons '(' _ (by simp)) hwidth
    simpa [text, tokens, widthChars, natText] using hall.reads

end DeclaredType

namespace Sql

namespace DefinedColumn

def option (c : DefinedColumn) : String := if c.nullable then "DEFAULT" else "NOT"

/-- The tokens of a column that begins with `name`. -/
def tokens (c : DefinedColumn) (name : Token) : List Token :=
  name :: (c.declared.tokens ++ words [c.option, "NULL"] ++ [.mark ','])

def chars (c : DefinedColumn) (name : List Char) : List Char :=
  name ++ ' ' :: (c.declared.text.toList ++ ' ' :: (c.option.toList ++ " NULL,\n".toList))

theorem ends_chars (c : DefinedColumn) {cs : List Char} {name : Token} (hname : Reads cs [name])
    (h : isLetters c.declared.base.toList = true) : Ends (c.chars cs) (c.tokens name) := by
  have hoption : isLetters c.option.toList = true := by
    unfold option
    cases c.nullable <;> decide
  have htype : Ends (c.declared.text.toList ++ ' ' :: wordsChars [c.option])
      (c.declared.tokens ++ words [c.option]) :=
    (c.declared.reads_text h).phrase [c.option] (by simpa using hoption)
  have hline : Ends [',', '\n'] [.mark ','] :=
    (ends_mark ',' (by simp)).append (ends_space '\n' (by decide))
  have hnull := (reads_word "NULL" (by decide)).append_ends (by simp) (stops_cons ',' _ (by simp))
    hline
  have hall := (hname.phrase [] (by simp)).append (htype.append hnull)
  simpa [chars, tokens, words, wordsChars] using hall

theorem readColumns_tokens (c : DefinedColumn) {name : Token}
    (hname : readColumnName name = some c.name) (rest : List Token) :
    readColumns (c.tokens name ++ rest) =
      (readColumns rest).map fun (columns, after) => (c :: columns, after) := by
  have hnullable : readNullable c.option = some c.nullable := by
    unfold option
    cases c.nullable <;> rfl
  have hcolumn : readColumn name c.declared c.option = some c := by
    simp [readColumn, hname, hnullable]
  obtain ⟨column, ⟨base, width⟩, nullable⟩ := c
  cases width with
  | none =>
    simp only [tokens, DeclaredType.tokens, words, List.map_cons, List.map_nil, List.cons_append,
      List.nil_append, readColumns, hcolumn]
    cases readColumns rest <;> rfl
  | some n =>
    have hdigits : digitsValue (natText n).toList = n := by
      rw [natText, String.toList_ofList, digitsValue_natChars]
    simp only [tokens, DeclaredType.tokens, words, List.map_cons, List.map_nil, List.cons_append,
      List.nil_append, readColumns, hdigits, hcolumn]
    cases readColumns rest <;> rfl

end DefinedColumn

namespace ColumnDefinition

def nameText : ColumnDefinition → String
  | id => "id"
  | nullable column _ => quoteName column

/-- The column `id` is named without quotes. -/
def nameToken : ColumnDefinition → Token
  | id => .word "id"
  | nullable column _ => .name column

theorem reads_nameText (d : ColumnDefinition) : Reads d.nameText.toList [d.nameToken] := by
  cases d with
  | id => exact reads_word "id" (by decide)
  | nullable column declared => exact reads_quoteName column

/-- What a definition says, where the declared type is written as one. -/
inductive Says : ColumnDefinition → DefinedColumn → Prop where
  | id : Says .id ⟨"id", ⟨"VARCHAR", some 255⟩, false⟩
  | nullable (column : String) (t : DeclaredType) (h : isLetters t.base.toList = true) :
      Says (.nullable column t.text) ⟨column, t, true⟩

variable {d : ColumnDefinition} {c : DefinedColumn}

theorem Says.readColumnName (h : d.Says c) : readColumnName d.nameToken = some c.name := by
  cases h <;> rfl

theorem Says.ends_text (h : d.Says c) :
    Ends (d.text.toList ++ [',', '\n']) (c.tokens d.nameToken) := by
  have htext : d.text.toList ++ [',', '\n'] = c.chars d.nameText.toList := by
    cases h with
    | id => rfl
    | nullable column t h =>
      simp [text, nameText, DefinedColumn.chars, DefinedColumn.option]
  have hbase : isLetters c.declared.base.toList = true := by
    cases h with
    | id => decide
    | nullable column t h => exact h
  rw [htext]
  exact c.ends_chars d.reads_nameText hbase

end ColumnDefinition

/-- Each column with a comma behind it, the last one too. -/
def columnsChars (ds : List ColumnDefinition) : List Char :=
  ds.flatMap fun d => d.text.toList ++ [',', '\n']

theorem exists_tokens_columns {ds : List ColumnDefinition} {cs : List DefinedColumn}
    (h : List.Forall₂ ColumnDefinition.Says ds cs) :
    ∃ ts, Ends (columnsChars ds) ts ∧ ∀ rest,
      readColumns (ts ++ rest) =
        (readColumns rest).map fun (columns, after) => (cs ++ columns, after) := by
  induction h with
  | nil =>
    refine ⟨[], ends_nil, fun rest => ?_⟩
    cases hrest : readColumns rest <;> simp [hrest]
  | @cons d c ds cs hd _ ih =>
    obtain ⟨ts, hends, hread⟩ := ih
    refine ⟨c.tokens d.nameToken ++ ts, hd.ends_text.append hends, fun rest => ?_⟩
    rw [List.append_assoc, c.readColumns_tokens hd.readColumnName, hread, Option.map_map]
    rfl

/-! ## The whole definition -/

def keyAndEngineTokens (engine : String) : List Token :=
  [.word "PRIMARY", .word "KEY", .mark '(', .word "id", .mark ')', .mark ')', .word "ENGINE",
    .comparison .eq, .word engine]

theorem tokenize_engine {engine : String} (h : Schema.isEngineName engine = true) :
    tokenize ("ENGINE=".toList ++ engine.toList) =
      some [.word "ENGINE", .comparison .eq, .word engine] := by
  cases hengine : engine.toList with
  | nil => simp [Schema.isEngineName, hengine] at h
  | cons c cs =>
    simp only [Schema.isEngineName, hengine, Bool.and_eq_true, List.all_eq_true] at h
    have hchars : ∀ d ∈ cs, isWordChar d = true := by
      intro d hd
      have hd := h.2 d hd
      simp only [Bool.or_eq_true, decide_eq_true_eq] at hd
      rcases hd with hd | rfl
      · simp [isWordChar, hd]
      · decide
    have hword := readToken_wordChars c cs [] h.1 hchars stops_nil
    rw [List.append_nil, ← hengine, String.ofList_toList] at hword
    have hkey : readToken 'E' ("NGINE=".toList ++ c :: cs) =
        some (.word "ENGINE", '=' :: c :: cs) := rfl
    have hequals : readToken '=' (c :: cs) = some (.comparison .eq, c :: cs) := rfl
    have hfirst : "ENGINE=".toList = 'E' :: "NGINE=".toList := rfl
    rw [hfirst, List.cons_append, tokenize_cons 'E' _ _ _ (by decide) hkey,
      tokenize_cons '=' _ _ _ (by decide) hequals,
      tokenize_cons c cs [] _ (isSpace_of_isAlpha c h.1) hword, tokenize_nil]
    rfl

theorem tokenize_keyAndEngine {engine : String} (h : Schema.isEngineName engine = true) :
    tokenize ("PRIMARY KEY (id)\n) ENGINE=".toList ++ engine.toList) =
      some (keyAndEngineTokens engine) := by
  have hid : Ends "id)".toList [.word "id", .mark ')'] :=
    (reads_word "id" (by decide)).append_ends (by simp) (stops_cons ')' [] (by simp))
      (ends_mark ')' (by simp))
  have hend : Ends ['\n', ')', ' '] [.mark ')'] :=
    (ends_space '\n' (by decide)).append ((ends_mark ')' (by simp)).append ends_blank)
  have hkey := (ends_words ["PRIMARY", "KEY"] (by decide)).append
    ((ends_mark '(' (by simp)).append (hid.append hend))
  have htext : "PRIMARY KEY (id)\n) ENGINE=".toList = wordsChars ["PRIMARY", "KEY"] ++
      (['('] ++ ("id)".toList ++ ['\n', ')', ' '])) ++ "ENGINE=".toList := rfl
  rw [htext, List.append_assoc, hkey, tokenize_engine h]
  rfl

theorem intercalate_append_singleton {α : Type} (sep last : List α) (xs : List (List α)) :
    sep.intercalate (xs ++ [last]) = xs.flatMap (· ++ sep) ++ last := by
  induction xs with
  | nil => simp
  | cons x xs ih =>
    have hne : xs ++ [last] ≠ [] := by simp
    obtain ⟨y, ys, hys⟩ := List.exists_cons_of_ne_nil hne
    rw [List.cons_append, List.flatMap_cons, hys, List.intercalate_cons_cons, ← hys, ih]
    simp only [List.append_assoc]

/-- The line of the key is the last one, so a comma stands behind every column. -/
theorem toList_text (t : CreateTable) :
    t.text.toList = wordsChars ["CREATE", "TABLE"] ++ ((quotePath t.table).toList ++
      ([' ', '(', '\n'] ++ (columnsChars t.columns ++
        ("PRIMARY KEY (id)\n) ENGINE=".toList ++ t.engine.toList)))) := by
  have htext : t.text = "CREATE TABLE " ++ quotePath t.table ++ " (\n" ++
      ",\n".intercalate (t.columns.map ColumnDefinition.text ++ ["PRIMARY KEY (id)"]) ++
        "\n) ENGINE=" ++ t.engine := rfl
  have hlines : (",\n".intercalate (t.columns.map ColumnDefinition.text ++
      ["PRIMARY KEY (id)"])).toList = columnsChars t.columns ++ "PRIMARY KEY (id)".toList := by
    rw [String.toList_intercalate, List.map_append, List.map_singleton,
      intercalate_append_singleton, List.map_map, List.flatMap_map]
    rfl
  have hlast : "PRIMARY KEY (id)\n) ENGINE=".toList =
      "PRIMARY KEY (id)".toList ++ "\n) ENGINE=".toList := rfl
  simp only [htext, String.toList_append, hlines, hlast, List.append_assoc]
  rfl

theorem readTable_tokens (table engine : String) {ts : List Token} {columns : List DefinedColumn}
    (hread : ∀ rest, readColumns (ts ++ rest) =
      (readColumns rest).map fun (more, after) => (columns ++ more, after)) :
    readTable (words ["CREATE", "TABLE"] ++ (pathTokens table ++
      ([.mark '('] ++ (ts ++ keyAndEngineTokens engine)))) =
        some ⟨pathNames table, columns, "id", engine⟩ := by
  have hkey : readColumns (keyAndEngineTokens engine) = some ([], keyAndEngineTokens engine) := rfl
  have hcolumns : readColumns (ts ++ keyAndEngineTokens engine) =
      some (columns, keyAndEngineTokens engine) := by
    rw [hread, hkey, Option.map_some]
    exact congrArg (fun cs => some (cs, _)) (List.append_nil columns)
  change (KeyCommand.readPath (pathTokens table ++ .mark '(' :: (ts ++ keyAndEngineTokens engine))
    ).bind _ = _
  rw [KeyCommand.readPath_path table _ (by simp), Option.bind_some]
  change (readColumns (ts ++ keyAndEngineTokens engine)).bind _ = _
  rw [hcolumns]
  rfl

theorem readDefinition_text {t : CreateTable} {columns : List DefinedColumn}
    (h : List.Forall₂ ColumnDefinition.Says t.columns columns)
    (hengine : Schema.isEngineName t.engine = true) :
    readDefinition t.text = some ⟨pathNames t.table, columns, "id", t.engine⟩ := by
  obtain ⟨ts, hends, hread⟩ := exists_tokens_columns h
  have hopen : Ends [' ', '(', '\n'] [.mark '('] :=
    ends_blank.append ((ends_mark '(' (by simp)).append (ends_space '\n' (by decide)))
  have hpath := (reads_quotePath t.table).append_ends (by simp) (stops_cons ' ' _ (by simp)) hopen
  have hall := (ends_words ["CREATE", "TABLE"] (by decide)).append (hpath.append hends)
    ("PRIMARY KEY (id)\n) ENGINE=".toList ++ t.engine.toList)
  have htokens : tokenize t.text.toList = some (words ["CREATE", "TABLE"] ++ (pathTokens t.table ++
      ([.mark '('] ++ (ts ++ keyAndEngineTokens t.engine)))) := by
    rw [tokenize_keyAndEngine hengine, Option.map_some] at hall
    rw [toList_text]
    simpa only [List.append_assoc] using hall
  rw [readDefinition, htokens, Option.bind_some, readTable_tokens t.table t.engine hread]

end Sql

end RowStore
