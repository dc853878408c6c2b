import Mathlib
import RowStore.Proofs.Number.Numeral
import RowStore.Proofs.Sql.Token

/-!
# Reading what was written

A name, a literal, a word or a mark reads back as one token with its content, whatever follows it
in a statement. Texts that read back can be put one after the other.
-/

namespace RowStore.Sql

open Text (isAsciiDigit hexValue? hexDigit byteHex)

/-! ## Quoted text -/

theorem readName_accent (cs : List Char) :
    readName ('\x60' :: '\x60' :: cs) =
      (readName cs).map fun (ds, after) => ('\x60' :: ds, after) := by
  rw [readName]

theorem readName_close (rest : List Char) (h : rest.head? ≠ some '\x60') :
    readName ('\x60' :: rest) = some ([], rest) := by
  rw [readName]
  rintro cs rfl
  exact h rfl

theorem readName_cons (c : Char) (cs : List Char) (h : c ≠ '\x60') :
    readName (c :: cs) = (readName cs).map fun (ds, after) => (c :: ds, after) := by
  rw [readName]
  · exact fun _ hc _ => h hc
  · exact h

theorem readName_flatMap (cs rest : List Char) :
    readName (cs.flatMap nameChar ++ rest) =
      (readName rest).map fun (ds, after) => (cs ++ ds, after) := by
  induction cs with
  | nil => exact (Option.map_id_apply).symm
  | cons c cs ih =>
    rw [List.flatMap_cons, List.append_assoc]
    by_cases hc : c = '\x60'
    · subst hc
      change readName ('\x60' :: '\x60' :: (cs.flatMap nameChar ++ rest)) = _
      rw [readName_accent, ih, Option.map_map]
      rfl
    · rw [nameChar, if_neg hc, List.singleton_append, readName_cons c _ hc, ih, Option.map_map]
      rfl

theorem readName_quoted (cs rest : List Char) (h : rest.head? ≠ some '\x60') :
    readName (cs.flatMap nameChar ++ '\x60' :: rest) = some (cs, rest) := by
  simp only [readName_flatMap, readName_close rest h, Option.map_some, List.append_nil]

theorem readString_escape (c : Char) (cs : List Char) :
    readString ('\x5c' :: c :: cs) =
      (readString cs).map fun (ds, after) => (escapedChars c ++ ds, after) := by
  rw [readString]

theorem readString_close (rest : List Char) (h : rest.head? ≠ some '\x27') :
    readString ('\x27' :: rest) = some ([], rest) := by
  rw [readString]
  rintro cs rfl
  exact h rfl

theorem readString_cons (c : Char) (cs : List Char) (h1 : c ≠ '\x5c') (h2 : c ≠ '\x27') :
    readString (c :: cs) = (readString cs).map fun (ds, after) => (c :: ds, after) := by
  rw [readString]
  · exact fun _ _ hc _ => h1 hc
  · exact fun _ hc _ => h2 hc
  · exact h2

theorem stringChar_cases (c : Char) :
    (∃ e, stringChar c = ['\x5c', e] ∧ escapedChars e = [c]) ∨
      (stringChar c = [c] ∧ c ≠ '\x5c' ∧ c ≠ '\x27') := by
  unfold stringChar
  split
  case h_10 c _ _ _ _ _ _ _ hquote hslash => exact Or.inr ⟨rfl, hslash, hquote⟩
  all_goals exact Or.inl ⟨_, rfl, rfl⟩

theorem readString_quoted (cs rest : List Char) (h : rest.head? ≠ some '\x27') :
    readString (cs.flatMap stringChar ++ '\x27' :: rest) = some (cs, rest) := by
  induction cs with
  | nil => exact readString_close rest h
  | cons c cs ih =>
    rw [List.flatMap_cons, List.append_assoc]
    rcases stringChar_cases c with ⟨e, hc, he⟩ | ⟨hc, hslash, hquote⟩
    · rw [hc, List.cons_append, List.singleton_append, readString_escape, ih]
      simp [he]
    · rw [hc, List.singleton_append, readString_cons c _ hslash hquote, ih]
      rfl

theorem hexValue?_hexDigit : ∀ n < 16, hexValue? (hexDigit n) = some n := by decide

theorem hexDigit_ne_quote : ∀ n < 16, hexDigit n ≠ '\x27' := by decide

theorem readBinary_bytes (content : List UInt8) (rest : List Char) :
    readBinary (content.flatMap byteHex ++ '\x27' :: rest) = some (content, rest) := by
  induction content with
  | nil => rw [List.flatMap_nil, List.nil_append, readBinary]
  | cons b content ih =>
    have hb : b.toNat < 256 := b.toNat_lt
    have hhigh : b.toNat / 16 < 16 := by omega
    have hlow : b.toNat % 16 < 16 := Nat.mod_lt _ (by decide)
    rw [List.flatMap_cons, byteHex, List.append_assoc, List.cons_append, List.singleton_append,
      readBinary]
    · rw [hexValue?_hexDigit _ hhigh, hexValue?_hexDigit _ hlow, ih]
      simp [Nat.div_add_mod]
    · exact hexDigit_ne_quote _ hhigh

/-! ## What stops a token -/

/-- The end, or a character that cannot go on with a token. -/
def Stops (rest : List Char) : Prop := ∀ c ∈ rest.head?, c ∈ [' ', ',', '(', ')']

theorem stops_nil : Stops [] := by simp [Stops]

theorem stops_cons (c : Char) (cs : List Char) (h : c ∈ [' ', ',', '(', ')']) :
    Stops (c :: cs) := by
  simpa [Stops] using h

theorem stops_append (cs rest : List Char) (h : Stops cs) (hr : Stops rest) :
    Stops (cs ++ rest) := by
  cases cs with
  | nil => exact hr
  | cons c cs => simpa [Stops] using h

theorem head?_ne_of_stops (rest : List Char) (h : Stops rest) (c : Char)
    (hc : c ∉ [' ', ',', '(', ')']) : rest.head? ≠ some c := fun he => hc (h c he)

theorem not_of_all_not (p : Char → Bool) (cs : List Char) (h : (cs.all fun c => !p c) = true)
    (c : Char) (hc : c ∈ cs) : p c = false := by
  simpa using List.all_eq_true.mp h c hc

theorem not_of_stops (p : Char → Bool) (rest : List Char) (h : Stops rest)
    (hp : ([' ', ',', '(', ')'].all fun c => !p c) = true) : ∀ c ∈ rest.head?, p c = false :=
  fun c hc => not_of_all_not p _ hp c (h c hc)

/-! ## Numbers -/

theorem readFraction_of_ne (cs : List Char) (h : cs.head? ≠ some '.') :
    readFraction cs = ([], cs) := by
  unfold readFraction
  split
  · exact absurd rfl h
  · rfl

theorem readFraction_fraction (fraction rest : List Char) (h : IsFraction fraction)
    (hdigit : ∀ c ∈ rest.head?, isAsciiDigit c = false) (hpoint : rest.head? ≠ some '.') :
    readFraction (fraction ++ rest) = (fraction, rest) := by
  rcases h with rfl | ⟨ds, hds, rfl⟩
  · exact readFraction_of_ne rest hpoint
  · obtain ⟨htake, hdrop⟩ := span_append isAsciiDigit ds rest hds.2 hdigit
    rw [List.cons_append, readFraction, htake, hdrop]

theorem readSign_append (sign cs : List Char) (h : sign ∈ [[], ['+'], ['-']])
    (hcs : ∀ c ∈ cs.head?, isAsciiDigit c = true) : readSign (sign ++ cs) = (sign, cs) := by
  simp only [List.mem_cons, List.not_mem_nil, or_false] at h
  rcases h with rfl | rfl | rfl
  · rw [List.nil_append]
    unfold readSign
    split
    · exact absurd (hcs '+' rfl) (by decide)
    · exact absurd (hcs '-' rfl) (by decide)
    · rfl
  · rfl
  · rfl

theorem readExponent_exponent (exponent rest : List Char) (h : IsExponent exponent)
    (hrest : Stops rest) : readExponent (exponent ++ rest) = (exponent, rest) := by
  rcases h with rfl | ⟨sign, ds, hsign, hds, rfl⟩
  · cases rest with
    | nil => rfl
    | cons c rest =>
      have hc := hrest c rfl
      have hletter : ¬ (c = 'e' ∨ c = 'E') := by
        rintro (rfl | rfl) <;> exact absurd hc (by decide)
      simp [readExponent, hletter]
  · obtain ⟨htake, hdrop⟩ := span_append isAsciiDigit ds rest hds.2
      (not_of_stops isAsciiDigit rest hrest (by decide))
    have hhead : ∀ c ∈ (ds ++ rest).head?, isAsciiDigit c = true := by
      obtain ⟨d, ds, rfl⟩ := List.exists_cons_of_ne_nil hds.1
      simpa using hds.2 d List.mem_cons_self
    rw [List.cons_append, List.append_assoc, readExponent,
      readSign_append sign (ds ++ rest) hsign hhead]
    simp [htake, hdrop, hds.1]

theorem head?_exponent_append (exponent rest : List Char) (h : IsExponent exponent)
    (hrest : Stops rest) :
    ∀ c ∈ (exponent ++ rest).head?, c ∈ ['e', ' ', ',', '(', ')'] := by
  rcases h with rfl | ⟨sign, ds, -, -, rfl⟩
  · exact fun c hc => List.mem_cons_of_mem _ (hrest c hc)
  · simp

theorem head?_fraction_append (fraction rest : List Char) (h : IsFraction fraction) :
    ∀ c ∈ (fraction ++ rest).head?, c = '.' ∨ c ∈ rest.head? := by
  rcases h with rfl | ⟨ds, -, rfl⟩
  · exact fun c hc => Or.inr hc
  · simp

theorem readNumber_numeral (cs rest : List Char) (h : IsNumeral cs) (hrest : Stops rest) :
    readNumber (cs ++ rest) = (cs, rest) := by
  obtain ⟨whole, fraction, exponent, hw, hf, he, rfl⟩ := h
  have hexp := head?_exponent_append exponent rest he hrest
  have hdigit : ∀ c ∈ (exponent ++ rest).head?, isAsciiDigit c = false := by
    intro c hc
    exact not_of_all_not isAsciiDigit _ (by decide) c (hexp c hc)
  have hpoint : (exponent ++ rest).head? ≠ some '.' :=
    fun hc => absurd (hexp '.' hc) (by decide)
  have hafter : ∀ c ∈ (fraction ++ (exponent ++ rest)).head?, isAsciiDigit c = false := by
    intro c hc
    rcases head?_fraction_append fraction _ hf c hc with rfl | hc
    · decide
    · exact hdigit c hc
  obtain ⟨htake, hdrop⟩ := span_append isAsciiDigit whole (fraction ++ (exponent ++ rest)) hw.2
    hafter
  simp only [readNumber, List.append_assoc, htake, hdrop,
    readFraction_fraction fraction (exponent ++ rest) hf hdigit hpoint,
    readExponent_exponent exponent rest he hrest]

/-! ## Single tokens -/

theorem readToken_name (cs rest : List Char) (h : rest.head? ≠ some '\x60') :
    readToken '\x60' (cs.flatMap nameChar ++ '\x60' :: rest) =
      some (.name (String.ofList cs), rest) := by
  rw [readToken, if_pos rfl, readName_quoted cs rest h]
  rfl

theorem readToken_string (cs rest : List Char) (h : rest.head? ≠ some '\x27') :
    readToken '\x27' (cs.flatMap stringChar ++ '\x27' :: rest) =
      some (.string (String.ofList cs), rest) := by
  rw [readToken, if_neg (by decide), if_pos rfl, readString_quoted cs rest h]
  rfl

theorem readToken_binary (content : List UInt8) (rest : List Char) :
    readToken 'X' ('\x27' :: (content.flatMap byteHex ++ '\x27' :: rest)) =
      some (.binary content, rest) := by
  rw [readToken, if_neg (by decide), if_neg (by decide), if_neg (by decide), if_pos (by decide),
    readWord, List.dropWhile_cons_of_pos (by decide), List.dropWhile_cons_of_neg (by decide),
    List.takeWhile_cons_of_pos (by decide), List.takeWhile_cons_of_neg (by decide)]
  simp [readBinary_bytes]

theorem not_quote_of_isAsciiDigit (c : Char) (h : isAsciiDigit c = true) :
    c ≠ '\x60' ∧ c ≠ '\x27' ∧ isSpace c = false := by
  refine ⟨?_, ?_, ?_⟩
  · rintro rfl
    exact absurd h (by decide)
  · rintro rfl
    exact absurd h (by decide)
  · by_contra hs
    simp only [isSpace, List.contains_eq_mem, List.mem_cons, List.not_mem_nil, or_false,
      decide_eq_false_iff_not, not_not] at hs
    rcases hs with rfl | rfl | rfl | rfl | rfl | rfl <;> exact absurd h (by decide)

theorem readToken_number (c : Char) (cs rest : List Char) (h : IsNumeral (c :: cs))
    (hc : isAsciiDigit c = true) (hrest : Stops rest) :
    readToken c (cs ++ rest) = some (.number (String.ofList (c :: cs)), rest) := by
  obtain ⟨haccent, hquote, -⟩ := not_quote_of_isAsciiDigit c hc
  have hread := readNumber_numeral (c :: cs) rest h hrest
  have hword : rest.head?.any isWordChar = false := by
    cases rest with
    | nil => rfl
    | cons d rest => exact not_of_stops isWordChar (d :: rest) hrest (by decide) d rfl
  rw [List.cons_append] at hread
  rw [readToken, if_neg haccent, if_neg hquote, if_pos hc, hread]
  simp [hword]

/-- A letter and more letters, as the words of a statement are. -/
def isLetters : List Char → Bool
  | [] => false
  | c :: cs => c.isAlpha && cs.all Char.isAlpha

theorem isAlpha_iff (c : Char) :
    c.isAlpha = true ↔ (65 ≤ c.toNat ∧ c.toNat ≤ 90) ∨ (97 ≤ c.toNat ∧ c.toNat ≤ 122) := by
  simp only [Char.isAlpha, Char.isUpper, Char.isLower, Bool.or_eq_true, Bool.and_eq_true,
    decide_eq_true_eq, ge_iff_le, UInt32.le_iff_toNat_le]
  exact Iff.rfl

theorem isWordChar_of_isAlpha (c : Char) (h : c.isAlpha = true) : isWordChar c = true := by
  simp [isWordChar, Char.isAlphanum, h]

theorem readToken_wordChars (c : Char) (cs rest : List Char) (halpha : c.isAlpha = true)
    (hcs : ∀ d ∈ cs, isWordChar d = true) (hrest : Stops rest) :
    readToken c (cs ++ rest) = some (.word (String.ofList (c :: cs)), rest) := by
  have hc := (isAlpha_iff c).mp halpha
  have haccent : c ≠ '\x60' := by
    rintro rfl
    exact absurd hc (by decide)
  have hquote : c ≠ '\x27' := by
    rintro rfl
    exact absurd hc (by decide)
  have hdigit : ¬ isAsciiDigit c = true := by
    rw [isAsciiDigit_iff]
    omega
  have hword := isWordChar_of_isAlpha c halpha
  obtain ⟨htake, hdrop⟩ := span_append isWordChar (c :: cs) rest
    (List.forall_mem_cons.mpr ⟨hword, hcs⟩) (not_of_stops isWordChar rest hrest (by decide))
  rw [List.cons_append] at htake hdrop
  rw [readToken, if_neg haccent, if_neg hquote, if_neg hdigit, if_pos hword, readWord, hdrop,
    htake]
  -- A quote behind an `X` would make it a binary literal.
  split
  · rename_i digits heq
    exact absurd (hrest '\x27' rfl) (by decide)
  · rfl

theorem readToken_word (c : Char) (cs rest : List Char) (h : isLetters (c :: cs) = true)
    (hrest : Stops rest) :
    readToken c (cs ++ rest) = some (.word (String.ofList (c :: cs)), rest) := by
  simp only [isLetters, Bool.and_eq_true, List.all_eq_true] at h
  exact readToken_wordChars c cs rest h.1 (fun d hd => isWordChar_of_isAlpha d (h.2 d hd)) hrest

theorem readToken_mark (c : Char) (rest : List Char) (h : c ∈ ['(', ')', ',', '*']) :
    readToken c rest = some (.mark c, rest) := by
  simp only [List.mem_cons, List.not_mem_nil, or_false] at h
  rcases h with rfl | rfl | rfl | rfl <;> rfl

theorem readToken_minus (c : Char) (rest : List Char) (h : isAsciiDigit c = true) :
    readToken '-' (c :: rest) = some (.mark '-', c :: rest) := by
  have hne : c ≠ '-' := by
    rintro rfl
    exact absurd h (by decide)
  rw [readToken, if_neg (by decide), if_neg (by decide), if_neg (by decide), if_neg (by decide)]
  simp [readComparison, readMark, hne]

theorem readToken_point (rest : List Char) :
    readToken '.' ('\x60' :: rest) = some (.mark '.', '\x60' :: rest) := rfl

theorem readToken_comparison (comparison : Comparison) (rest : List Char) :
    ∃ c cs, comparison.text.toList = c :: cs ∧ isSpace c = false ∧
      readToken c (cs ++ ' ' :: rest) = some (.comparison comparison, ' ' :: rest) := by
  cases comparison
  · exact ⟨'=', [], rfl, rfl, rfl⟩
  · exact ⟨'!', ['='], rfl, rfl, rfl⟩
  · exact ⟨'>', [], rfl, rfl, rfl⟩
  · exact ⟨'>', ['='], rfl, rfl, rfl⟩
  · exact ⟨'<', [], rfl, rfl, rfl⟩
  · exact ⟨'<', ['='], rfl, rfl, rfl⟩

end RowStore.Sql
