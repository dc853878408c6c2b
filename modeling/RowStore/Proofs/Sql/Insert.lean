import Mathlib
import RowStore.Proofs.Sql.Statement

/-!
# Reading an insert back

A statement that inserts rows says a verb, a table, columns and rows of literals. All of it can be
read back from the tokens, whatever the names and the literals hold.
-/

namespace RowStore.Sql

/-- What a statement that inserts rows says. -/
structure Insert where
  verb : String
  /-- The names of the table's path. -/
  path : List String
  columns : List String
  rows : List (List Literal)
  deriving DecidableEq

def Insert.tokens (i : Insert) : List Token :=
  words [i.verb, "INTO"] ++ [Token.mark '.'].intercalate (i.path.map nameTokens) ++
    listTokens (i.columns.map nameTokens) ++ words ["VALUES"] ++
    commaTokens (i.rows.map tupleTokens)

/-! ## Reading -/

def readLiteral : List Token → Option Literal
  | [.word "NULL"] => some .null
  | [.word "true"] => some (.bool true)
  | [.word "false"] => some (.bool false)
  | [.number digits] => some (.number digits)
  | [.mark '-', .number digits] => some (.number ("-" ++ digits))
  | [.string s] => some (.string s)
  | [.binary content] => some (.binary content)
  | _ => none

def readNameToken : List Token → Option String
  | [.name name] => some name
  | _ => none

/-- The parts between commas. Nothing at all has no parts. -/
def commaParts (ts : List Token) : List (List Token) :=
  if ts.isEmpty then [] else ts.splitOn (.mark ',')

/-- The parts of a list in parentheses, and what follows it. -/
def readList : List Token → Option (List (List Token) × List Token)
  | .mark '(' :: ts =>
    match ts.dropWhile (· != .mark ')') with
    | _ :: after => some (commaParts (ts.takeWhile (· != .mark ')')), after)
    | [] => none
  | _ => none

theorem readList_length (ts after : List Token) (parts : List (List Token))
    (h : readList ts = some (parts, after)) : after.length < ts.length := by
  unfold readList at h
  split at h
  · rename_i rest
    split at h
    · rename_i close more hdrop
      have hlength := (List.dropWhile_suffix (fun t => t != Token.mark ')') (l := rest)).length_le
      rw [hdrop, List.length_cons] at hlength
      simp only [Option.some.injEq, Prod.mk.injEq] at h
      rw [← h.2, List.length_cons]
      omega
    · cases h
  · cases h

def readRows (ts : List Token) : Option (List (List Literal)) :=
  match _h : readList ts with
  | none => none
  | some (parts, after) =>
    (parts.mapM readLiteral).bind fun literals =>
      match after with
      | [] => some [literals]
      | .mark ',' :: more => (readRows more).map (literals :: ·)
      | _ => none
termination_by ts.length
decreasing_by
  have := readList_length ts _ parts _h
  simp only [List.length_cons] at this
  omega

def readInsert : List Token → Option Insert
  | .word verb :: .word "INTO" :: ts => do
    let path ← ((ts.takeWhile (· != .mark '(')).splitOn (.mark '.')).mapM readNameToken
    let (parts, after) ← readList (ts.dropWhile (· != .mark '('))
    let columns ← parts.mapM readNameToken
    match after with
    | .word "VALUES" :: rest => return ⟨verb, path, columns, ← readRows rest⟩
    | _ => none
  | _ => none

/-! ## Literals and names -/

theorem readLiteral_tokens (l : Literal) : readLiteral l.tokens = some l := by
  cases l with
  | null => rfl
  | bool b => cases b <;> rfl
  | number digits =>
    rcases numberTokens_cases digits with ⟨htokens, -⟩ | ⟨cs, hdigits, htokens⟩
    · rw [Literal.tokens, htokens, readLiteral]
    · have hminus : "-" ++ String.ofList cs = digits := by
        rw [← String.toList_inj, hdigits]
        simp
      rw [Literal.tokens, htokens, readLiteral, hminus]
  | string s => rfl
  | binary content => rfl

theorem mapM_map_eq_some {α β γ : Type} {f : β → Option γ} {g : α → β} {h : α → γ}
    (hfg : ∀ x, f (g x) = some (h x)) (xs : List α) : (xs.map g).mapM f = some (xs.map h) := by
  induction xs with
  | nil => rfl
  | cons x xs ih => simp [hfg, ih]

/-- A part of a list: it has tokens, and no mark of a list is one of them. -/
def IsPart (ts : List Token) : Prop :=
  ts ≠ [] ∧ ∀ c ∈ [',', '(', ')'], Token.mark c ∉ ts

theorem isPart_name (name : String) : IsPart (nameTokens name) := by simp [IsPart, nameTokens]

theorem isPart_literal (l : Literal) : IsPart l.tokens := by
  cases l with
  | number digits =>
    rcases numberTokens_cases digits with ⟨htokens, -⟩ | ⟨cs, -, htokens⟩ <;>
      simp [IsPart, Literal.tokens, htokens]
  | _ => simp [IsPart, Literal.tokens]

/-! ## Lists -/

theorem of_mem_intercalate {α : Type} {sep x : α} {parts : List (List α)}
    (h : x ∈ [sep].intercalate parts) : x = sep ∨ ∃ part ∈ parts, x ∈ part := by
  induction parts with
  | nil => simp at h
  | cons part parts ih =>
    cases parts with
    | nil => exact Or.inr ⟨part, by simp, by simpa using h⟩
    | cons next parts =>
      rw [List.intercalate_cons_cons, List.append_assoc, List.mem_append, List.mem_append,
        List.mem_singleton] at h
      rcases h with h | h | h
      · exact Or.inr ⟨part, by simp, h⟩
      · exact Or.inl h
      · rcases ih h with h | ⟨other, hother, h⟩
        · exact Or.inl h
        · exact Or.inr ⟨other, List.mem_cons_of_mem _ hother, h⟩

theorem commaParts_commaTokens (parts : List (List Token)) (h : ∀ part ∈ parts, IsPart part) :
    commaParts (commaTokens parts) = parts := by
  unfold commaParts commaTokens
  cases parts with
  | nil => rfl
  | cons part parts =>
    have hne : ([Token.mark ','].intercalate (part :: parts)).isEmpty = false := by
      have hpart := (h part (by simp)).1
      cases parts <;> simp [hpart]
    rw [hne, if_neg (by simp)]
    exact List.splitOn_intercalate _ (fun p hp => (h p hp).2 ',' (by simp)) (by simp)

theorem readList_listTokens (parts : List (List Token)) (rest : List Token)
    (h : ∀ part ∈ parts, IsPart part) :
    readList (listTokens parts ++ rest) = some (parts, rest) := by
  have hinner : ∀ t ∈ commaTokens parts, (t != Token.mark ')') = true := by
    intro t ht
    rw [bne_iff_ne]
    rintro rfl
    rcases of_mem_intercalate ht with heq | ⟨part, hpart, ht⟩
    · exact absurd heq (by decide)
    · exact (h part hpart).2 ')' (by simp) ht
  obtain ⟨htake, hdrop⟩ := span_append (fun t => t != Token.mark ')') (commaTokens parts)
    (.mark ')' :: rest) hinner (by simp)
  have htext : listTokens parts ++ rest =
      .mark '(' :: (commaTokens parts ++ .mark ')' :: rest) := by simp [listTokens]
  rw [htext, readList, hdrop, htake, commaParts_commaTokens parts h]

/-! ## Rows -/

theorem readList_tupleTokens (literals : List Literal) (rest : List Token) :
    readList (tupleTokens literals ++ rest) = some (literals.map Literal.tokens, rest) := by
  refine readList_listTokens _ rest fun part hpart => ?_
  obtain ⟨l, -, rfl⟩ := List.mem_map.mp hpart
  exact isPart_literal l

theorem readRows_eq (literals : List Literal) (rest : List Token) (rows : List (List Literal))
    (h : rest = [] ∧ rows = [] ∨ ∃ more, rest = .mark ',' :: more ∧ readRows more = some rows) :
    readRows (tupleTokens literals ++ rest) = some (literals :: rows) := by
  have hliterals : (literals.map Literal.tokens).mapM readLiteral = some literals := by
    simpa using mapM_map_eq_some (h := id) readLiteral_tokens literals
  rw [readRows]
  split
  · rename_i hnone
    rw [readList_tupleTokens] at hnone
    cases hnone
  · rename_i parts after hsome
    rw [readList_tupleTokens] at hsome
    obtain ⟨rfl, rfl⟩ := Prod.mk.inj (Option.some.inj hsome)
    rw [hliterals, Option.bind_some]
    rcases h with ⟨rfl, rfl⟩ | ⟨more, rfl, hmore⟩
    · rfl
    · simp only [hmore, Option.map_some]

theorem readRows_tokens (rows : List (List Literal)) (h : rows ≠ []) :
    readRows (commaTokens (rows.map tupleTokens)) = some rows := by
  induction rows with
  | nil => exact absurd rfl h
  | cons row rows ih =>
    cases rows with
    | nil => simpa [commaTokens] using readRows_eq row [] [] (Or.inl ⟨rfl, rfl⟩)
    | cons next rows =>
      have htail := ih (by simp)
      simp only [commaTokens, List.map_cons, List.intercalate_cons_cons] at htail ⊢
      rw [List.append_assoc]
      exact readRows_eq row _ _ (Or.inr ⟨_, rfl, htail⟩)

/-! ## Inserts -/

theorem readNameTokens (names : List String) :
    (names.map nameTokens).mapM readNameToken = some names := by
  simpa using mapM_map_eq_some (f := readNameToken) (g := nameTokens) (h := id) (fun _ => rfl) names

theorem isPart_of_mem_names (names : List String) :
    ∀ part ∈ names.map nameTokens, IsPart part := by
  intro part hpart
  obtain ⟨name, -, rfl⟩ := List.mem_map.mp hpart
  exact isPart_name name

theorem splitOn_names (names : List String) (h : names ≠ []) :
    ([Token.mark '.'].intercalate (names.map nameTokens)).splitOn (.mark '.') =
      names.map nameTokens := by
  refine List.splitOn_intercalate _ (fun part hpart => ?_) (by simpa using h)
  obtain ⟨name, -, rfl⟩ := List.mem_map.mp hpart
  simp [nameTokens]

theorem ne_open_of_mem_path (names : List String) :
    ∀ t ∈ [Token.mark '.'].intercalate (names.map nameTokens), (t != Token.mark '(') = true := by
  intro t ht
  rw [bne_iff_ne]
  rintro rfl
  rcases of_mem_intercalate ht with heq | ⟨part, hpart, ht⟩
  · exact absurd heq (by decide)
  · exact (isPart_of_mem_names names part hpart).2 '(' (by simp) ht

theorem readInsert_tokens (i : Insert) (hpath : i.path ≠ []) (hrows : i.rows ≠ []) :
    readInsert i.tokens = some i := by
  let after := Token.word "VALUES" :: commaTokens (i.rows.map tupleTokens)
  obtain ⟨htake, hdrop⟩ := span_append (fun t => t != Token.mark '(') _
    (listTokens (i.columns.map nameTokens) ++ after) (ne_open_of_mem_path i.path)
    (by simp [listTokens])
  have htokens : i.tokens = .word i.verb :: .word "INTO" ::
      ([Token.mark '.'].intercalate (i.path.map nameTokens) ++
        (listTokens (i.columns.map nameTokens) ++ after)) := by
    simp [Insert.tokens, after, words]
  rw [htokens, readInsert, htake, hdrop, splitOn_names i.path hpath, readNameTokens,
    readList_listTokens _ after (isPart_of_mem_names i.columns)]
  simp only [Option.bind_eq_bind, Option.bind_some, readNameTokens, after,
    readRows_tokens i.rows hrows]
  rfl

end RowStore.Sql
