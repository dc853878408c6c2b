import Mathlib
import RowStore.Proofs.Sql.Insert

/-!
# Statements with parameters

A question mark in a statement stands for the next of the values that are bound to it. These come to
the server beside the text, so nothing in them is read as SQL.
-/

namespace RowStore.Sql

/-- What a server makes of a text or of bytes that are bound. -/
def parameterToken? : Value → Option Token
  | .text s => some (.string s)
  | .blob content => some (.binary content)
  | _ => none

/-- The tokens of a statement, with its values where they are bound. Each value is used once. -/
def tokenizeBound (params : List Value) (cs : List Char) : Option (List Token) :=
  match cs with
  | [] => if params.isEmpty then some [] else none
  | c :: rest =>
    if isSpace c then tokenizeBound params rest
    else if c = '?' then
      (params.head?.bind parameterToken?).bind fun t =>
        (tokenizeBound params.tail rest).map (t :: ·)
    else
      match _h : readToken c rest with
      | none => none
      | some (t, after) => (tokenizeBound params after).map (t :: ·)
termination_by cs.length
decreasing_by
  · simp
  · simp
  · have := readToken_length c rest after t _h
    simp only [List.length_cons]
    omega

variable {params : List Value}

theorem tokenizeBound_end : tokenizeBound [] [] = some [] := by
  rw [tokenizeBound]
  rfl

theorem tokenizeBound_space (c : Char) (rest : List Char) (h : isSpace c = true) :
    tokenizeBound params (c :: rest) = tokenizeBound params rest := by
  rw [tokenizeBound, if_pos h]

theorem tokenizeBound_mark (v : Value) (t : Token) (rest : List Char)
    (h : parameterToken? v = some t) :
    tokenizeBound (v :: params) ('?' :: rest) = (tokenizeBound params rest).map (t :: ·) := by
  rw [tokenizeBound, if_neg (by decide), if_pos rfl]
  simp [h]

theorem tokenizeBound_cons (c : Char) (rest after : List Char) (t : Token) (hc : isSpace c = false)
    (hmark : c ≠ '?') (h : readToken c rest = some (t, after)) :
    tokenizeBound params (c :: rest) = (tokenizeBound params after).map (t :: ·) := by
  rw [tokenizeBound, if_neg (by simp [hc]), if_neg hmark]
  split
  · rename_i hnone
    rw [h] at hnone
    cases hnone
  · rename_i t' after' hsome
    rw [h] at hsome
    cases hsome
    rfl

theorem readToken_question (rest : List Char) : readToken '?' rest = none := by
  cases rest <;> rfl

theorem tokenizeBound_nil (cs : List Char) : tokenizeBound [] cs = tokenize cs := by
  induction h : cs.length using Nat.strong_induction_on generalizing cs with
  | _ n ih =>
    cases cs with
    | nil => rw [tokenizeBound_end, tokenize_nil]
    | cons c rest =>
      rw [tokenize]
      by_cases hspace : isSpace c = true
      · rw [tokenizeBound_space c rest hspace, if_pos hspace]
        exact ih _ (by simp [← h]) rest rfl
      rw [if_neg hspace]
      split
      · rename_i hnone
        rw [tokenizeBound, if_neg hspace]
        split
        · rfl
        · split
          · rfl
          · simp_all
      · rename_i t after hsome
        -- No token begins with a question mark, so no parameter is asked for.
        have hmark : c ≠ '?' := by
          rintro rfl
          rw [readToken_question] at hsome
          cases hsome
        have hlength := readToken_length c rest after t hsome
        rw [List.length_cons] at h
        rw [tokenizeBound_cons c rest after t (by simpa using hspace) hmark hsome,
          ih _ (by omega) after rfl]

/-! ## Parts of a statement -/

theorem tokenizeBound_word (w : String) (rest : List Char) (h : isLetters w.toList = true)
    (hrest : Stops rest) :
    tokenizeBound params (w.toList ++ rest) = (tokenizeBound params rest).map (.word w :: ·) := by
  cases hw : w.toList with
  | nil => simp [hw, isLetters] at h
  | cons c cs =>
    rw [hw] at h
    have halpha : c.isAlpha = true := by simp_all [isLetters]
    have hmark : c ≠ '?' := by
      rintro rfl
      exact absurd halpha (by decide)
    rw [List.cons_append, tokenizeBound_cons c (cs ++ rest) rest _ (isSpace_of_isAlpha c halpha)
      hmark (readToken_word c cs rest h hrest), ← hw, String.ofList_toList]

theorem tokenizeBound_quotedName (cs rest : List Char) (h : rest.head? ≠ some '\x60') :
    tokenizeBound params (quotedName cs ++ rest) =
      (tokenizeBound params rest).map (.name (String.ofList cs) :: ·) := by
  rw [quotedName, List.cons_append, List.append_assoc, List.singleton_append,
    tokenizeBound_cons '\x60' _ rest _ (by decide) (by decide) (readToken_name cs rest h)]

theorem tokenizeBound_quotedNames (p : List Char) (ps : List (List Char)) (rest : List Char)
    (hrest : Stops rest) :
    tokenizeBound params (['.'].intercalate ((p :: ps).map quotedName) ++ rest) =
      (tokenizeBound params rest).map
        ([Token.mark '.'].intercalate (((p :: ps).map String.ofList).map nameTokens) ++ ·) := by
  induction ps generalizing p with
  | nil =>
    have hhead := head?_ne_of_stops rest hrest '\x60' (by decide)
    simpa [nameTokens] using tokenizeBound_quotedName p rest hhead
  | cons q ps ih =>
    obtain ⟨cs, hcs⟩ := exists_accent_cons q ps
    have htail := ih q
    simp only [List.map_cons, List.intercalate_cons_cons] at htail hcs ⊢
    rw [hcs, List.cons_append] at htail
    rw [hcs, List.append_assoc, List.append_assoc, tokenizeBound_quotedName p _ (by simp),
      nameTokens, List.singleton_append, List.cons_append,
      tokenizeBound_cons '.' _ _ _ (by decide) (by decide) (readToken_point (cs ++ rest)), htail]
    cases tokenizeBound params rest <;> simp

theorem tokenizeBound_quotePath (path : String) (rest : List Char) (hrest : Stops rest) :
    tokenizeBound params ((quotePath path).toList ++ rest) =
      (tokenizeBound params rest).map (pathTokens path ++ ·) := by
  rw [quotePath, String.toList_ofList, pathTokens, pathNames]
  obtain ⟨p, ps, hparts⟩ := List.exists_cons_of_ne_nil (segments_ne_nil path.toList)
  rw [hparts]
  exact tokenizeBound_quotedNames p ps rest hrest

/-! ## Storing one entry -/

theorem tokenizeBound_entry (key : String) (value : List UInt8) :
    tokenizeBound [.text key, .blob value] " (`id`, `v`) VALUES (?, ?)".toList =
      some (listTokens (["id", "v"].map nameTokens) ++ words ["VALUES"] ++
        tupleTokens [.string key, .binary value]) := by
  change tokenizeBound _ (' ' :: '(' :: '\x60' :: 'i' :: 'd' :: '\x60' :: ',' :: ' ' :: '\x60' ::
    'v' :: '\x60' :: ')' :: ' ' :: ("VALUES".toList ++ [' ', '(', '?', ',', ' ', '?', ')'])) = _
  rw [tokenizeBound_space ' ' _ rfl, tokenizeBound_cons '(' _ _ _ rfl (by decide) rfl,
    tokenizeBound_cons '\x60' _ _ _ rfl (by decide) rfl,
    tokenizeBound_cons ',' _ _ _ rfl (by decide) rfl, tokenizeBound_space ' ' _ rfl,
    tokenizeBound_cons '\x60' _ _ _ rfl (by decide) rfl,
    tokenizeBound_cons ')' _ _ _ rfl (by decide) rfl, tokenizeBound_space ' ' _ rfl,
    tokenizeBound_word "VALUES" _ (by decide) (stops_cons ' ' _ (by simp)),
    tokenizeBound_space ' ' _ rfl, tokenizeBound_cons '(' _ _ _ rfl (by decide) rfl,
    tokenizeBound_mark _ _ _ rfl, tokenizeBound_cons ',' _ _ _ rfl (by decide) rfl,
    tokenizeBound_space ' ' _ rfl, tokenizeBound_mark _ _ _ rfl,
    tokenizeBound_cons ')' _ _ _ rfl (by decide) rfl, tokenizeBound_end]
  rfl

theorem tokenizeBound_replace (table key : String) (value : List UInt8) :
    tokenizeBound [.text key, .blob value]
        ("REPLACE INTO " ++ quotePath table ++ " (`id`, `v`) VALUES (?, ?)").toList =
      some (Insert.tokens
        ⟨"REPLACE", pathNames table, ["id", "v"], [[.string key, .binary value]]⟩) := by
  have htext : ("REPLACE INTO " ++ quotePath table ++ " (`id`, `v`) VALUES (?, ?)").toList =
      "REPLACE".toList ++ (' ' :: ("INTO".toList ++ (' ' :: ((quotePath table).toList ++
        " (`id`, `v`) VALUES (?, ?)".toList)))) := by
    simp
  have hstops : Stops " (`id`, `v`) VALUES (?, ?)".toList := stops_cons ' ' _ (by simp)
  rw [htext, tokenizeBound_word "REPLACE" _ (by decide) (stops_cons ' ' _ (by simp)),
    tokenizeBound_space ' ' _ rfl,
    tokenizeBound_word "INTO" _ (by decide) (stops_cons ' ' _ (by simp)),
    tokenizeBound_space ' ' _ rfl,
    tokenizeBound_quotePath table _ hstops, tokenizeBound_entry]
  simp [Insert.tokens, words, pathTokens, commaTokens]

end RowStore.Sql
