import Mathlib.Data.List.Basic
import RowStore.Proofs.Sql.Reading
import RowStore.Sql.Literal

/-!
# Texts one after the other

A part of a statement reads as the same tokens wherever it stands, as long as what follows it stops
its last token. From here on a statement is read part by part and not character by character.
-/

namespace RowStore.Sql

variable {cs ds : List Char} {ts us : List Token}

/-- `cs` reads as `ts` when the text behind it stops the last of these tokens. -/
def Reads (cs : List Char) (ts : List Token) : Prop :=
  ∀ rest, Stops rest → tokenize (cs ++ rest) = (tokenize rest).map (ts ++ ·)

/-- `cs` reads as `ts` whatever the text behind it is. -/
def Ends (cs : List Char) (ts : List Token) : Prop :=
  ∀ rest, tokenize (cs ++ rest) = (tokenize rest).map (ts ++ ·)

theorem Ends.reads (h : Ends cs ts) : Reads cs ts := fun rest _ => h rest

theorem Reads.tokenize_eq (h : Reads cs ts) : tokenize cs = some ts := by
  have hnil := h [] stops_nil
  rw [List.append_nil, tokenize_nil, Option.map_some, List.append_nil] at hnil
  exact hnil

theorem map_append_append (x : Option (List Token)) (ts us : List Token) :
    (x.map (us ++ ·)).map (ts ++ ·) = x.map ((ts ++ us) ++ ·) := by
  cases x <;> simp

theorem ends_nil : Ends [] [] := by
  intro rest
  cases h : tokenize rest <;> simp [h]

theorem Ends.append (h : Ends cs ts) (h' : Ends ds us) : Ends (cs ++ ds) (ts ++ us) := by
  intro rest
  rw [List.append_assoc, h, h', map_append_append]

theorem Ends.append_reads (h : Ends cs ts) (h' : Reads ds us) : Reads (cs ++ ds) (ts ++ us) := by
  intro rest hrest
  rw [List.append_assoc, h, h' rest hrest, map_append_append]

theorem Reads.append (h : Reads cs ts) (hds : Stops ds) (h' : Reads ds us) :
    Reads (cs ++ ds) (ts ++ us) := by
  intro rest hrest
  rw [List.append_assoc, h _ (stops_append ds rest hds hrest), h' rest hrest, map_append_append]

theorem Reads.append_ends (h : Reads cs ts) (hne : ds ≠ []) (hds : Stops ds) (h' : Ends ds us) :
    Ends (cs ++ ds) (ts ++ us) := by
  intro rest
  have hstops : Stops (ds ++ rest) := by
    intro c hc
    rw [List.head?_append_of_ne_nil _ hne] at hc
    exact hds c hc
  rw [List.append_assoc, h _ hstops, h', map_append_append]

/-! ## Blanks, marks and words -/

theorem ends_space (c : Char) (h : isSpace c = true) : Ends [c] [] := by
  intro rest
  rw [List.singleton_append, tokenize_space c rest h]
  cases tokenize rest <;> rfl

theorem ends_blank : Ends [' '] [] := ends_space ' ' (by decide)

theorem ends_mark (c : Char) (h : c ∈ ['(', ')', ',', '*']) : Ends [c] [.mark c] := by
  intro rest
  have hspace : isSpace c = false := not_of_all_not isSpace _ (by decide) c h
  rw [List.singleton_append, tokenize_cons c rest rest (.mark c) hspace (readToken_mark c rest h)]
  rfl

theorem isSpace_of_isAlpha (c : Char) (h : c.isAlpha = true) : isSpace c = false := by
  have hc := (isAlpha_iff c).mp h
  by_contra hs
  simp only [isSpace, List.contains_eq_mem, List.mem_cons, List.not_mem_nil, or_false,
    decide_eq_false_iff_not, not_not] at hs
  rcases hs with rfl | rfl | rfl | rfl | rfl | rfl <;> exact absurd hc (by decide)

theorem reads_word (w : String) (h : isLetters w.toList = true) : Reads w.toList [.word w] := by
  intro rest hrest
  cases hw : w.toList with
  | nil => simp [hw, isLetters] at h
  | cons c cs =>
    rw [hw] at h
    have hspace : isSpace c = false := isSpace_of_isAlpha c (by simp_all [isLetters])
    rw [List.cons_append, tokenize_cons c (cs ++ rest) rest _ hspace
      (readToken_word c cs rest h hrest), ← hw, String.ofList_toList]
    rfl

def words (ws : List String) : List Token := ws.map .word

/-- Words with a blank after each of them. -/
def wordsChars (ws : List String) : List Char := ws.flatMap fun w => w.toList ++ [' ']

theorem ends_words (ws : List String) (h : ∀ w ∈ ws, isLetters w.toList = true) :
    Ends (wordsChars ws) (words ws) := by
  induction ws with
  | nil => exact ends_nil
  | cons w ws ih =>
    have hw := reads_word w (h w List.mem_cons_self)
    exact (hw.append_ends (by simp) (stops_cons ' ' [] (by simp)) ends_blank).append
      (ih fun v hv => h v (List.mem_cons_of_mem _ hv))

theorem ends_phrase (ws : List String) (h : ∀ w ∈ ws, isLetters w.toList = true) :
    Ends (' ' :: wordsChars ws) (words ws) := ends_blank.append (ends_words ws h)

theorem Reads.phrase (h : Reads cs ts) (ws : List String)
    (hws : ∀ w ∈ ws, isLetters w.toList = true) :
    Ends (cs ++ ' ' :: wordsChars ws) (ts ++ words ws) :=
  h.append_ends (by simp) (stops_cons ' ' _ (by simp)) (ends_phrase ws hws)

/-! ## Names and literals -/

theorem tokenize_quotedName (cs rest : List Char) (h : rest.head? ≠ some '\x60') :
    tokenize (quotedName cs ++ rest) =
      (tokenize rest).map (.name (String.ofList cs) :: ·) := by
  rw [quotedName, List.cons_append, List.append_assoc, List.singleton_append,
    tokenize_cons '\x60' _ rest _ (by decide) (readToken_name cs rest h)]

theorem reads_quotedName (cs : List Char) : Reads (quotedName cs) [.name (String.ofList cs)] :=
  fun rest hrest => tokenize_quotedName cs rest (head?_ne_of_stops rest hrest _ (by decide))

theorem reads_quoteName (name : String) : Reads (quoteName name).toList [.name name] := by
  rw [quoteName, String.toList_ofList]
  simpa using reads_quotedName name.toList

theorem reads_quoteString (s : String) : Reads (quoteString s).toList [.string s] := by
  intro rest hrest
  have hquote : rest.head? ≠ some '\x27' := head?_ne_of_stops rest hrest _ (by decide)
  rw [quoteString, String.toList_ofList, quotedString, List.cons_append, List.append_assoc,
    List.singleton_append,
    tokenize_cons '\x27' _ rest _ (by decide) (readToken_string s.toList rest hquote),
    String.ofList_toList]
  rfl

theorem reads_binary (content : List UInt8) :
    Reads ("X'" ++ Text.bytesHex content ++ "'").toList [.binary content] := by
  intro rest hrest
  have htext : ("X'" ++ Text.bytesHex content ++ "'").toList ++ rest =
      'X' :: '\x27' :: (content.flatMap Text.byteHex ++ '\x27' :: rest) := by
    simp [Text.bytesHex]
  rw [htext, tokenize_cons 'X' _ rest _ (by decide) (readToken_binary content rest)]
  rfl

theorem reads_numeral (cs : List Char) (h : IsNumeral cs) :
    Reads cs [.number (String.ofList cs)] := by
  intro rest hrest
  obtain ⟨c, cs, rfl, hc⟩ := exists_digit_cons_of_isNumeral cs h
  obtain ⟨-, -, hspace⟩ := not_quote_of_isAsciiDigit c hc
  rw [List.cons_append, tokenize_cons c (cs ++ rest) rest _ hspace
    (readToken_number c cs rest h hc hrest)]
  rfl

/-- The tokens of a number, a minus of its own in front of it. -/
def numberTokens (digits : String) : List Token :=
  match digits.toList with
  | '-' :: cs => [.mark '-', .number (String.ofList cs)]
  | _ => [.number digits]

theorem numberTokens_cases (digits : String) :
    (numberTokens digits = [.number digits] ∧ digits.toList.head? ≠ some '-') ∨
      ∃ cs, digits.toList = '-' :: cs ∧
        numberTokens digits = [.mark '-', .number (String.ofList cs)] := by
  unfold numberTokens
  split
  · rename_i cs hdigits
    exact Or.inr ⟨cs, hdigits, rfl⟩
  · rename_i hdigits
    refine Or.inl ⟨rfl, ?_⟩
    intro hhead
    obtain ⟨cs, hcs⟩ := List.head?_eq_some_iff.mp hhead
    exact hdigits cs hcs

theorem reads_number (digits : String) (h : IsSignedNumeral digits.toList) :
    Reads digits.toList (numberTokens digits) := by
  rcases numberTokens_cases digits with ⟨htokens, hhead⟩ | ⟨cs, hdigits, htokens⟩
  · rcases h with h | ⟨ds, -, hdigits⟩
    · simpa [htokens] using reads_numeral digits.toList h
    · simp [hdigits] at hhead
  · have hnumeral : IsNumeral cs := by
      rcases h with h | ⟨ds, h, hds⟩
      · obtain ⟨c, ds, hds, hc⟩ := exists_digit_cons_of_isNumeral _ h
        obtain ⟨rfl, rfl⟩ := List.cons.inj (hdigits.symm.trans hds)
        exact absurd hc (by decide)
      · obtain ⟨-, rfl⟩ := List.cons.inj (hdigits.symm.trans hds)
        exact h
    intro rest hrest
    obtain ⟨c, cs, rfl, hc⟩ := exists_digit_cons_of_isNumeral cs hnumeral
    have htail := reads_numeral (c :: cs) hnumeral rest hrest
    rw [List.cons_append] at htail
    rw [htokens, hdigits, List.cons_append, List.cons_append, tokenize_cons '-' _ _ _ (by decide)
      (readToken_minus c (cs ++ rest) hc), htail]
    cases tokenize rest <;> rfl

theorem ends_comparison (comparison : Comparison) :
    Ends (comparison.text.toList ++ [' ']) [.comparison comparison] := by
  intro rest
  obtain ⟨c, cs, htext, hspace, hread⟩ := readToken_comparison comparison rest
  rw [htext, List.append_assoc, List.singleton_append, List.cons_append,
    tokenize_cons c _ _ _ hspace hread, tokenize_space ' ' rest (by decide)]
  rfl

/-! ## Clauses -/

/-- A part that may stand right behind another one. It is empty or begins with a blank. -/
def Follows (cs : List Char) (ts : List Token) : Prop := Stops cs ∧ Reads cs ts

theorem follows_nil : Follows [] [] := ⟨stops_nil, ends_nil.reads⟩

theorem Follows.append (h : Follows cs ts) (h' : Follows ds us) : Follows (cs ++ ds) (ts ++ us) :=
  ⟨stops_append cs ds h.1 h'.1, h.2.append h'.1 h'.2⟩

theorem follows_phrase (ws : List String) (hws : ∀ w ∈ ws, isLetters w.toList = true)
    (h : Reads ds us) : Follows (' ' :: wordsChars ws ++ ds) (words ws ++ us) :=
  ⟨stops_cons ' ' _ (by simp), (ends_phrase ws hws).append_reads h⟩

theorem Reads.append_follows (h : Reads cs ts) (h' : Follows ds us) :
    Reads (cs ++ ds) (ts ++ us) := h.append h'.1 h'.2

/-! ## Lists -/

theorem reads_intercalate {α : Type} (sep : List Char) (st : List Token) (text : α → List Char)
    (tokens : α → List Token) (hne : sep ≠ []) (hstops : Stops sep) (hsep : Ends sep st)
    (xs : List α) (h : ∀ x ∈ xs, Reads (text x) (tokens x)) :
    Reads (sep.intercalate (xs.map text)) (st.intercalate (xs.map tokens)) := by
  induction xs with
  | nil => exact ends_nil.reads
  | cons x xs ih =>
    cases xs with
    | nil => simpa using h x (by simp)
    | cons y ys =>
      have htail := ih fun z hz => h z (List.mem_cons_of_mem _ hz)
      simp only [List.map_cons, List.intercalate_cons_cons] at htail ⊢
      exact ((h x (by simp)).append_ends hne hstops hsep).append_reads htail

def nameTokens (name : String) : List Token := [.name name]

def pathNames (path : String) : List String := (segments path.toList).map String.ofList

/-- The tokens of a path, a point between its names. -/
def pathTokens (path : String) : List Token :=
  [Token.mark '.'].intercalate ((pathNames path).map nameTokens)

/-- A quoted part begins with its accent, so the point before it is no part of a number. -/
theorem exists_accent_cons (p : List Char) (ps : List (List Char)) :
    ∃ cs, ['.'].intercalate ((p :: ps).map quotedName) = '\x60' :: cs := by
  cases ps with
  | nil => exact ⟨_, by rw [List.map_singleton, List.intercalate_singleton, quotedName]⟩
  | cons q ps =>
    exact ⟨_, by
      rw [List.map_cons, List.map_cons, List.intercalate_cons_cons, quotedName, List.cons_append,
        List.cons_append]⟩

theorem reads_quotedNames (p : List Char) (ps : List (List Char)) :
    Reads (['.'].intercalate ((p :: ps).map quotedName))
      ([Token.mark '.'].intercalate (((p :: ps).map String.ofList).map nameTokens)) := by
  induction ps generalizing p with
  | nil => simpa [nameTokens] using reads_quotedName p
  | cons q ps ih =>
    intro rest hrest
    obtain ⟨cs, hcs⟩ := exists_accent_cons q ps
    have htail := ih q rest hrest
    simp only [List.map_cons, List.intercalate_cons_cons] at htail hcs ⊢
    rw [hcs, List.cons_append] at htail
    rw [hcs, List.append_assoc, List.append_assoc, tokenize_quotedName p _ (by simp), nameTokens,
      List.singleton_append, List.cons_append,
      tokenize_cons '.' _ _ _ (by decide) (readToken_point (cs ++ rest)), htail]
    cases tokenize rest <;> simp

theorem reads_quotePath (path : String) : Reads (quotePath path).toList (pathTokens path) := by
  rw [quotePath, String.toList_ofList, pathTokens, pathNames]
  obtain ⟨p, ps, hparts⟩ := List.exists_cons_of_ne_nil (segments_ne_nil path.toList)
  rw [hparts]
  exact reads_quotedNames p ps

end RowStore.Sql
