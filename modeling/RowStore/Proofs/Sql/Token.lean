import RowStore.Sql.Literal
import RowStore.Sql.Quoted
import RowStore.Text.Hex

/-!
# Tokens

The words, names, literals and marks that a server makes of the text of a statement, by the lexical
rules of MySQL in its default mode. A text with anything else in it has no tokens at all: a comment,
a double quote, a semicolon, another operator.
-/

namespace RowStore.Sql

open Text (isAsciiDigit hexValue?)

inductive Token where
  /-- A keyword, or a name without quotes. -/
  | word (letters : String)
  | name (s : String)
  | string (s : String)
  | binary (content : List UInt8)
  /-- A number without its sign. -/
  | number (digits : String)
  | comparison (c : Comparison)
  | mark (c : Char)
  deriving DecidableEq

/-! ## Quoted text -/

/-- The rest of a name, and what follows its closing accent. -/
def readName : List Char → Option (List Char × List Char)
  | '\x60' :: '\x60' :: rest => (readName rest).map fun (cs, after) => ('\x60' :: cs, after)
  | '\x60' :: rest => some ([], rest)
  | c :: rest => (readName rest).map fun (cs, after) => (c :: cs, after)
  | [] => none

/-- What a backslash and `c` stand for. Before the marks of a pattern the backslash stays. -/
def escapedChars (c : Char) : List Char :=
  match c with
  | '0' => ['\x00']
  | 'b' => ['\x08']
  | 't' => ['\x09']
  | 'n' => ['\x0a']
  | 'r' => ['\x0d']
  | 'Z' => ['\x1a']
  | '%' => ['\x5c', '%']
  | '_' => ['\x5c', '_']
  | c => [c]

/-- The rest of a string, and what follows its closing quote. -/
def readString : List Char → Option (List Char × List Char)
  | '\x5c' :: c :: rest => (readString rest).map fun (cs, after) => (escapedChars c ++ cs, after)
  | '\x27' :: '\x27' :: rest => (readString rest).map fun (cs, after) => ('\x27' :: cs, after)
  | '\x27' :: rest => some ([], rest)
  | c :: rest => (readString rest).map fun (cs, after) => (c :: cs, after)
  | [] => none

/-- The rest of a hexadecimal literal, two digits for each byte. -/
def readBinary : List Char → Option (List UInt8 × List Char)
  | '\x27' :: rest => some ([], rest)
  | a :: b :: rest =>
    match hexValue? a, hexValue? b with
    | some m, some n =>
      (readBinary rest).map fun (content, after) => (UInt8.ofNat (16 * m + n) :: content, after)
    | _, _ => none
  | _ => none

/-! ## Numbers -/

def readFraction : List Char → List Char × List Char
  | '.' :: rest => ('.' :: rest.takeWhile isAsciiDigit, rest.dropWhile isAsciiDigit)
  | cs => ([], cs)

def readSign : List Char → List Char × List Char
  | '+' :: rest => (['+'], rest)
  | '-' :: rest => (['-'], rest)
  | cs => ([], cs)

/-- An exponent has at least one digit. Otherwise there is none. -/
def readExponent : List Char → List Char × List Char
  | c :: rest =>
    let (sign, digits) := readSign rest
    let ds := digits.takeWhile isAsciiDigit
    if (c = 'e' ∨ c = 'E') ∧ ds ≠ [] then
      (c :: (sign ++ ds), digits.dropWhile isAsciiDigit)
    else ([], c :: rest)
  | [] => ([], [])

def readNumber (cs : List Char) : List Char × List Char :=
  let (fraction, afterFraction) := readFraction (cs.dropWhile isAsciiDigit)
  let (exponent, after) := readExponent afterFraction
  (cs.takeWhile isAsciiDigit ++ (fraction ++ exponent), after)

/-! ## Marks and words -/

def readComparison : List Char → Option (Comparison × List Char)
  | '<' :: '=' :: '>' :: _ => none
  | '<' :: '=' :: rest => some (.le, rest)
  | '<' :: '>' :: rest => some (.ne, rest)
  | '<' :: '<' :: _ => none
  | '<' :: rest => some (.lt, rest)
  | '>' :: '=' :: rest => some (.ge, rest)
  | '>' :: '>' :: _ => none
  | '>' :: rest => some (.gt, rest)
  | '!' :: '=' :: rest => some (.ne, rest)
  | '=' :: rest => some (.eq, rest)
  | _ => none

/-- A second minus could begin a comment, and a digit makes a point part of a number. -/
def readMark (c : Char) (rest : List Char) : Option (Token × List Char) :=
  match c, rest with
  | '-', '-' :: _ => none
  | '.', d :: _ => if isAsciiDigit d then none else some (.mark '.', rest)
  | c, rest => if c ∈ ['(', ')', ',', '.', '*', '-'] then some (.mark c, rest) else none

def isSpace (c : Char) : Bool := [' ', '\x09', '\x0a', '\x0b', '\x0c', '\x0d'].contains c

/-- Letters, digits and what else can stand in a name without quotes. -/
def isWordChar (c : Char) : Bool :=
  c.isAlphanum || c == '_' || c == '$' || decide (0x80 ≤ c.toNat)

/-- A word, or a hexadecimal literal. Other letters before a quote would change its string. -/
def readWord (cs : List Char) : Option (Token × List Char) :=
  match cs.dropWhile isWordChar with
  | '\x27' :: digits =>
    if cs.takeWhile isWordChar ∈ [['X'], ['x']] then
      (readBinary digits).map fun (content, after) => (.binary content, after)
    else none
  | after => some (.word (String.ofList (cs.takeWhile isWordChar)), after)

/-! ## The text of a statement -/

/-- The token that begins with `c`, and what follows it. -/
def readToken (c : Char) (rest : List Char) : Option (Token × List Char) :=
  if c = '\x60' then (readName rest).map fun (cs, after) => (.name (String.ofList cs), after)
  else if c = '\x27' then
    (readString rest).map fun (cs, after) => (.string (String.ofList cs), after)
  else if isAsciiDigit c then
    let (digits, after) := readNumber (c :: rest)
    -- A letter makes the digits part of a name.
    if after.head?.any isWordChar then none else some (.number (String.ofList digits), after)
  else if isWordChar c then readWord (c :: rest)
  else
    match readComparison (c :: rest) with
    | some (comparison, after) => some (.comparison comparison, after)
    | none => readMark c rest

/-! ### Reading goes forward -/

theorem length_dropWhile_le (p : Char → Bool) (cs : List Char) :
    (cs.dropWhile p).length ≤ cs.length := (List.dropWhile_suffix p).length_le

theorem of_map_eq_some {α β : Type} {x : Option (α × List Char)} {b : β} {after : List Char}
    {g : α × List Char → β × List Char} (h : x.map g = some (b, after))
    (hg : ∀ p, (g p).2 = p.2) : ∃ a, x = some (a, after) := by
  obtain ⟨⟨a, rest⟩, hx, heq⟩ := Option.map_eq_some_iff.mp h
  have hrest : (g (a, rest)).2 = rest := hg (a, rest)
  rw [heq] at hrest
  subst hrest
  exact ⟨a, hx⟩

theorem readName_length (cs name after : List Char) (h : readName cs = some (name, after)) :
    after.length ≤ cs.length := by
  induction cs using readName.induct generalizing name with
  | case1 rest ih =>
    simp only [readName] at h
    obtain ⟨cs, hr⟩ := of_map_eq_some h (fun _ => rfl)
    have := ih cs hr
    simp only [List.length_cons]
    omega
  | case2 rest hne =>
    simp only [readName, Option.some.injEq, Prod.mk.injEq] at h
    simp [h.2]
  | case3 c rest h1 h2 ih =>
    simp only [readName] at h
    obtain ⟨cs, hr⟩ := of_map_eq_some h (fun _ => rfl)
    have := ih cs hr
    simp only [List.length_cons]
    omega
  | case4 => simp [readName] at h

theorem readString_length (cs content after : List Char)
    (h : readString cs = some (content, after)) : after.length ≤ cs.length := by
  induction cs using readString.induct generalizing content with
  | case1 c rest ih =>
    simp only [readString] at h
    obtain ⟨cs, hr⟩ := of_map_eq_some h (fun _ => rfl)
    have := ih cs hr
    simp only [List.length_cons]
    omega
  | case2 rest ih =>
    simp only [readString] at h
    obtain ⟨cs, hr⟩ := of_map_eq_some h (fun _ => rfl)
    have := ih cs hr
    simp only [List.length_cons]
    omega
  | case3 rest hne =>
    simp only [readString, Option.some.injEq, Prod.mk.injEq] at h
    simp [h.2]
  | case4 c rest h1 h2 h3 ih =>
    simp only [readString] at h
    obtain ⟨cs, hr⟩ := of_map_eq_some h (fun _ => rfl)
    have := ih cs hr
    simp only [List.length_cons]
    omega
  | case5 => simp [readString] at h

theorem readBinary_length (cs : List Char) (content : List UInt8) (after : List Char)
    (h : readBinary cs = some (content, after)) : after.length ≤ cs.length := by
  induction cs using readBinary.induct generalizing content with
  | case1 rest =>
    simp only [readBinary, Option.some.injEq, Prod.mk.injEq] at h
    simp [h.2]
  | case2 a b rest hne m n hm hn ih =>
    rw [readBinary, hm, hn] at h
    · dsimp only at h
      obtain ⟨bs, hr⟩ := of_map_eq_some h (fun _ => rfl)
      have := ih bs hr
      simp only [List.length_cons]
      omega
    · exact hne
  | case3 a b rest hne hnone =>
    rw [readBinary] at h
    · cases ha : hexValue? a with
      | none => simp [ha] at h
      | some m =>
        cases hb : hexValue? b with
        | none => simp [ha, hb] at h
        | some n => exact (hnone m n ha hb).elim
    · exact hne
  | case4 cs h1 h2 => simp [readBinary] at h

theorem readFraction_length (cs : List Char) : (readFraction cs).2.length ≤ cs.length := by
  unfold readFraction
  split
  · exact Nat.le_succ_of_le (length_dropWhile_le _ _)
  · exact Nat.le_refl _

theorem readSign_length (cs : List Char) : (readSign cs).2.length ≤ cs.length := by
  unfold readSign
  split <;> simp

theorem readExponent_length (cs : List Char) : (readExponent cs).2.length ≤ cs.length := by
  cases cs with
  | nil => simp [readExponent]
  | cons c rest =>
    simp only [readExponent]
    split
    · have h1 := length_dropWhile_le isAsciiDigit (readSign rest).2
      have h2 := readSign_length rest
      simp only [List.length_cons]
      omega
    · exact Nat.le_refl _

theorem readNumber_length (c : Char) (rest : List Char) (h : isAsciiDigit c = true) :
    (readNumber (c :: rest)).2.length ≤ rest.length := by
  simp only [readNumber]
  have h1 := readExponent_length (readFraction ((c :: rest).dropWhile isAsciiDigit)).2
  have h2 := readFraction_length ((c :: rest).dropWhile isAsciiDigit)
  have h3 := length_dropWhile_le isAsciiDigit rest
  rw [List.dropWhile_cons_of_pos h] at h1 h2 ⊢
  omega

theorem readComparison_length (c : Char) (rest after : List Char) (comparison : Comparison)
    (h : readComparison (c :: rest) = some (comparison, after)) : after.length ≤ rest.length := by
  unfold readComparison at h
  split at h <;> simp_all

theorem readMark_length (c : Char) (rest after : List Char) (t : Token)
    (h : readMark c rest = some (t, after)) : after.length ≤ rest.length := by
  unfold readMark at h
  split at h
  · simp at h
  · split at h
    · simp at h
    · simp_all
  · split at h
    · simp_all
    · simp at h

theorem readWord_length (c : Char) (rest after : List Char) (t : Token)
    (hc : isWordChar c = true) (h : readWord (c :: rest) = some (t, after)) :
    after.length ≤ rest.length := by
  have hdrop := length_dropWhile_le isWordChar rest
  unfold readWord at h
  rw [List.dropWhile_cons_of_pos hc] at h
  split at h
  · rename_i digits hquote
    rw [hquote, List.length_cons] at hdrop
    split at h
    · obtain ⟨content, hr⟩ := of_map_eq_some h (fun _ => rfl)
      have := readBinary_length digits content _ hr
      omega
    · simp at h
  · simp only [Option.some.injEq, Prod.mk.injEq] at h
    rw [← h.2]
    exact hdrop

theorem readToken_length (c : Char) (rest after : List Char) (t : Token)
    (h : readToken c rest = some (t, after)) : after.length ≤ rest.length := by
  unfold readToken at h
  split at h
  · obtain ⟨cs, hr⟩ := of_map_eq_some h (fun _ => rfl)
    exact readName_length rest cs after hr
  split at h
  · obtain ⟨cs, hr⟩ := of_map_eq_some h (fun _ => rfl)
    exact readString_length rest cs after hr
  split at h
  · rename_i hdigit
    simp only at h
    split at h
    · simp at h
    · simp only [Option.some.injEq, Prod.mk.injEq] at h
      rw [← h.2]
      exact readNumber_length c rest hdigit
  split at h
  · exact readWord_length c rest after t ‹_› h
  split at h
  · rename_i comparison rest' hr
    simp only [Option.some.injEq, Prod.mk.injEq] at h
    rw [← h.2]
    exact readComparison_length c rest rest' comparison hr
  · exact readMark_length c rest after t h

/-! ### All tokens -/

def tokenize (cs : List Char) : Option (List Token) :=
  match cs with
  | [] => some []
  | c :: rest =>
    if isSpace c then tokenize rest
    else
      match _h : readToken c rest with
      | none => none
      | some (t, after) => (tokenize after).map (t :: ·)
termination_by cs.length
decreasing_by
  · simp
  · have := readToken_length c rest after t _h
    simp only [List.length_cons]
    omega

theorem tokenize_nil : tokenize [] = some [] := by rw [tokenize]

theorem tokenize_space (c : Char) (rest : List Char) (h : isSpace c = true) :
    tokenize (c :: rest) = tokenize rest := by
  rw [tokenize, if_pos h]

theorem tokenize_cons (c : Char) (rest after : List Char) (t : Token) (hc : isSpace c = false)
    (h : readToken c rest = some (t, after)) :
    tokenize (c :: rest) = (tokenize after).map (t :: ·) := by
  rw [tokenize, if_neg (by simp [hc])]
  split
  · rename_i hnone
    rw [h] at hnone
    cases hnone
  · rename_i t' after' hsome
    rw [h] at hsome
    cases hsome
    rfl

end RowStore.Sql
