import Mathlib
import RowStore.Proofs.Calendar.TextOrder
import RowStore.Proofs.Json.Spelling

/-!
# Reading what is spelled

The reader finds in a text the tree that the text spells, and stops where the spelling ends.
-/

namespace RowStore.Json

open Text (isAsciiDigit digitsValue hexValue?)

/-! ## Strings -/

theorem length_le_utf8ByteSize (cs : List Char) : cs.length ≤ (String.ofList cs).utf8ByteSize := by
  induction cs with
  | nil => exact Nat.zero_le _
  | cons c cs ih =>
    have hc := c.utf8Size_pos
    simp only [String.ofList_cons, String.utf8ByteSize_append, String.utf8ByteSize_singleton,
      List.length_cons]
    omega

theorem readCodeUnit_append {n : Nat} {four : List Char} (h : CodeUnit n four) (rest : List Char) :
    readCodeUnit (four ++ rest) = .ok (n, rest) := by
  obtain ⟨hlength, ds, hds, hn⟩ := h
  have htake : (four ++ rest).take 4 = four := by rw [← hlength, List.take_left]
  have hdrop : (four ++ rest).drop 4 = rest := by rw [← hlength, List.drop_left]
  have hsize : ¬ (String.ofList four).utf8ByteSize < 4 := by
    have hle := length_le_utf8ByteSize four
    omega
  simp only [readCodeUnit, htake, hdrop]
  rw [if_neg hsize, hds]
  simp only [hn]

theorem shortEscape?_of_mem : ∀ e ∈ escapes, shortEscape? e.1 = some e.2 ∧ e.1 ≠ 'u' := by decide

theorem readString_char {c : Char} {part : List Char} (h : SpellsChar c part) (fuel : Nat)
    (shown rest : List Char) :
    readString (fuel + 1) shown none (part ++ rest) = readString fuel (c :: shown) none rest := by
  cases h with
  | plain visible quote slash =>
    rw [List.singleton_append, readString]
    · rw [if_neg (by omega)]
    all_goals simp [quote, slash]
  | short letter escape =>
    have ⟨hmeaning, hletter⟩ := shortEscape?_of_mem (letter, c) escape
    rw [List.cons_append, List.singleton_append, readString, hmeaning]
    exact hletter
  | unit four unit =>
    have hvalid : c.toNat < 0xD800 ∨ 0xDFFF < c.toNat := by
      obtain h | ⟨h, -⟩ := c.valid
      · exact .inl h
      · exact .inr h
    rw [List.cons_append, List.cons_append, readString, readCodeUnit_append unit]
    simp only
    rw [if_neg (by omega), if_pos (by omega), Char.ofNat_toNat]
  | pair high low first second first_unit second_unit high_lt low_lt whole =>
    rw [List.cons_append, List.cons_append, List.append_assoc, List.cons_append, List.cons_append,
      readString, readCodeUnit_append first_unit]
    simp only
    rw [if_neg (by omega), if_neg (by omega), readCodeUnit_append second_unit]
    simp only
    rw [if_pos (by omega)]
    have hcode :
        0x10000 + (0xD800 + high - 0xD800) * 0x400 + (0xDC00 + low - 0xDC00) = c.toNat := by
      omega
    rw [hcode, Char.ofNat_toNat]

theorem length_pos_of_spellsChar {c : Char} {part : List Char} (h : SpellsChar c part) :
    0 < part.length := by
  cases h <;> exact Nat.succ_pos _

theorem readString_parts {cs : List Char} {parts : List (List Char)}
    (h : List.Forall₂ SpellsChar cs parts) (rest : List Char) (shown : List Char) (fuel : Nat)
    (hfuel : parts.flatten.length < fuel) :
    readString fuel shown none (parts.flatten ++ '\x22' :: rest) =
      .closed (.ok (String.ofList (shown.reverse ++ cs))) rest := by
  induction h generalizing shown fuel with
  | nil =>
    obtain ⟨fuel, rfl⟩ := Nat.exists_eq_succ_of_ne_zero (Nat.ne_zero_of_lt hfuel)
    simp [readString]
  | @cons c part cs parts hc hrest ih =>
    obtain ⟨fuel, rfl⟩ := Nat.exists_eq_succ_of_ne_zero (Nat.ne_zero_of_lt hfuel)
    have hpart := length_pos_of_spellsChar hc
    rw [List.flatten_cons, List.length_append] at hfuel
    rw [List.flatten_cons, List.append_assoc, Nat.succ_eq_add_one, readString_char hc,
      ih (c :: shown) fuel (by omega)]
    simp

theorem readQuoted_append {s : String} {text : List Char} (h : SpellsString s text)
    (rest : List Char) : readQuoted (text ++ '\x22' :: rest) = .closed (.ok s) rest := by
  obtain ⟨parts, hparts, rfl⟩ := h
  rw [readQuoted, readString_parts hparts]
  · simp
  · simp

/-! ## Numbers -/

theorem natChars_zero_cons {n : Nat} {d : Char} {ds : List Char} : natChars n ≠ '0' :: d :: ds := by
  intro h
  have hdigits := (isDigits_natChars n).2
  rw [h] at hdigits
  have hvalue : digitsValue (d :: ds) = n := by
    rw [← digitsValue_natChars n, h, digitsValue_cons '0']
    simp
  have hlt : n < 10 ^ (ds.length + 1) :=
    hvalue ▸ digitsValue_lt fun c hc => hdigits c (List.mem_cons_of_mem _ hc)
  have hlength : (natChars n).length ≤ ds.length + 1 :=
    (Nat.length_toDigits_le_iff (by decide) (Nat.succ_pos _)).mpr hlt
  rw [h] at hlength
  simp at hlength

theorem readTail_of_ends (negative : Bool) (whole : List Char) {rest : List Char}
    (h : EndsNumber rest) :
    readTail negative whole none rest = (.number ⟨negative, whole, none, none⟩ rest, rest) := by
  unfold readTail
  split
  case h_1 => exact absurd rfl (h _ rfl).2.2.1
  case h_2 => exact absurd rfl (h _ rfl).2.2.2
  case h_3 => rfl

theorem readNumber_natChars (negative : Bool) (n : Nat) {rest : List Char} (h : EndsNumber rest) :
    readNumber negative (natChars n ++ rest) =
      (.number ⟨negative, natChars n, none, none⟩ rest, rest) := by
  have hdigits := isDigits_natChars n
  obtain ⟨htake, hdrop⟩ :=
    span_append isAsciiDigit (natChars n) rest hdigits.2 fun c hc => (h c hc).1
  simp only [readNumber, htake, hdrop]
  split
  case h_1 hnil => exact absurd hnil hdigits.1
  case h_2 hzero => exact absurd hzero natChars_zero_cons
  case h_3 => exact absurd rfl (h _ rfl).2.1
  case h_4 => exact readTail_of_ends negative _ h

theorem le_foldl_digits (ds : List Char) (m : Nat) :
    m ≤ ds.foldl (fun n d => 10 * n + (d.toNat - 48)) m := by
  induction ds generalizing m with
  | nil => exact Nat.le_refl m
  | cons d ds ih =>
    have hstep := ih (10 * m + (d.toNat - 48))
    rw [List.foldl_cons]
    omega

theorem fill_eq {limit : Nat} {ds : List Char} {m : Nat}
    (h : ds.foldl (fun n d => 10 * n + (d.toNat - 48)) m < limit) :
    Numeral.fill limit m ds = (ds.foldl (fun n d => 10 * n + (d.toNat - 48)) m, []) := by
  induction ds generalizing m with
  | nil => rfl
  | cons d ds ih =>
    rw [List.foldl_cons] at h
    have hstep : 10 * m + Numeral.digit d < limit := lt_of_le_of_lt (le_foldl_digits ds _) h
    rw [Numeral.fill, if_pos hstep]
    exact ih h

theorem toNumber_natChars (negative : Bool) {n : Nat} (h : n < 2 ^ 64) :
    (⟨negative, natChars n, none, none⟩ : Numeral).toNumber = .ok (Numeral.toWhole negative n) := by
  have hvalue : (natChars n).foldl (fun n d => 10 * n + (d.toNat - 48)) 0 = n :=
    digitsValue_natChars n
  have hfill : Numeral.fill UInt64.size 0 (natChars n) = (n, []) := by
    rw [fill_eq (by rw [hvalue]; exact h), hvalue]
  simp [Numeral.toNumber, hfill]

/-! ## Blanks -/

theorem isSpace_of_mem : ∀ c ∈ blankChars, isSpace c = true := by simp [blankChars, isSpace]

theorem skipSpaces_append {blanks : List Char} (h : Blanks blanks) (cs : List Char) :
    skipSpaces (blanks ++ cs) = skipSpaces cs := by
  rw [skipSpaces, List.dropWhile_append_of_pos fun c hc => isSpace_of_mem c (h c hc)]
  rfl

theorem skipSpaces_blank {c : Char} (h : c ∈ blankChars) (cs : List Char) :
    skipSpaces (c :: cs) = skipSpaces cs := by
  rw [skipSpaces, List.dropWhile_cons_of_pos (isSpace_of_mem c h)]
  rfl

theorem readValue_skipSpaces (fuel : Nat) (cs : List Char) :
    readValue fuel (skipSpaces cs) = readValue fuel cs := by
  cases fuel with
  | zero => rfl
  | succ fuel =>
    have hskip : skipSpaces (skipSpaces cs) = skipSpaces cs := List.dropWhile_idempotent ..
    rw [readValue, readValue, hskip]

theorem skipSpaces_cons {c : Char} (h : isSpace c = false) (cs : List Char) :
    skipSpaces (c :: cs) = c :: cs := by
  rw [skipSpaces, List.dropWhile_cons_of_neg (by simp [h])]

theorem natChars_cons (n : Nat) : ∃ c more, natChars n = c :: more ∧ isAsciiDigit c = true := by
  have hdigits := isDigits_natChars n
  obtain ⟨c, more, hcons⟩ := List.exists_cons_of_ne_nil hdigits.1
  exact ⟨c, more, hcons, hdigits.2 c (by rw [hcons]; exact List.mem_cons_self)⟩

theorem intChars_cons (n : Int) : ∃ c more, intChars n = c :: more ∧
    (isAsciiDigit c = true ∨ c = '-') := by
  cases n with
  | ofNat n =>
    obtain ⟨c, more, hcons, hc⟩ := natChars_cons n
    exact ⟨c, more, hcons, .inl hc⟩
  | negSucc n => exact ⟨'-', natChars (n + 1), rfl, .inr rfl⟩

theorem not_isSpace_of_digit {c : Char} (h : isAsciiDigit c = true) : isSpace c = false := by
  rw [isAsciiDigit_iff] at h
  have hne : ∀ d : Char, d.toNat < 48 → c ≠ d := by
    rintro d hd rfl
    omega
  simp [isSpace, hne]

theorem Spells.head {t : Tree} {cs rest : List Char} :
    Spells t cs rest → ∃ c more, skipSpaces cs = c :: more ∧ c ≠ ']'
  | @Spells.blank _ cs _ c h value => by
    rw [skipSpaces_blank h cs]
    exact value.head
  | .null rest => ⟨'n', _, rfl, by decide⟩
  | .bool true rest => ⟨'t', _, rfl, by decide⟩
  | .bool false rest => ⟨'f', _, rfl, by decide⟩
  | .int n rest _ _ _ => by
    obtain ⟨c, more, hcons, hc⟩ := intChars_cons n
    have hspace : isSpace c = false := by
      obtain hdigit | rfl := hc
      · exact not_isSpace_of_digit hdigit
      · rfl
    rw [hcons, List.cons_append, skipSpaces_cons hspace]
    refine ⟨c, _, rfl, ?_⟩
    rintro rfl
    exact absurd hc (by decide)
  | .string _ _ _ _ => ⟨'\x22', _, rfl, by decide⟩
  | .array _ => ⟨'[', _, rfl, by decide⟩
  | .object _ => ⟨'\x7b', _, rfl, by decide⟩

section

variable {first : Bool} {opening blanks cs mid rest : List Char} {t : Tree} {d : Document}
  {fuel : Nat}

theorem readItems_close (first : Bool) (fuel : Nat) (rest : List Char)
    (h : Blanks blanks) :
    readItems (fuel + 1) first (blanks ++ ']' :: rest) = ([], none, rest) := by
  unfold readItems
  simp only [skipSpaces_append h, skipSpaces_cons (c := ']') rfl]

theorem readMembers_close (first : Bool) (fuel : Nat) (rest : List Char)
    (h : Blanks blanks) :
    readMembers (fuel + 1) first (blanks ++ '\x7d' :: rest) = ([], none, rest) := by
  unfold readMembers
  simp only [skipSpaces_append h, skipSpaces_cons (c := '\x7d') rfl]

theorem readItems_item {ds : List Document} (opens : Opens first opening) (value : Spells t cs mid)
    (hd : readValue fuel cs = (d, mid)) (hds : readItems fuel false mid = (ds, none, rest)) :
    readItems (fuel + 1) first (opening ++ cs) = (d :: ds, none, rest) := by
  obtain ⟨c, more, hskip, hc⟩ := value.head
  have hvalue : readValue fuel (c :: more) = (d, mid) := by rw [← hskip, readValue_skipSpaces, hd]
  unfold readItems
  cases opens with
  | first _ h => simp [skipSpaces_append h, hskip, hc, hvalue, hds]
  | later before behind hbefore hbehind =>
    have hcomma : skipSpaces (before ++ ',' :: (behind ++ cs)) = ',' :: (behind ++ cs) := by
      rw [skipSpaces_append hbefore, skipSpaces_cons rfl]
    simp [hcomma, skipSpaces_append hbehind, hskip, hc, hvalue, hds]

theorem readMembers_member {ds : List (Quoted × Document)} {key : String} {text : List Char}
    (opens : Opens first opening) (name : SpellsString key text)
    (h : Blanks blanks) (hd : readValue fuel cs = (d, mid))
    (hds : readMembers fuel false mid = (ds, none, rest)) :
    readMembers (fuel + 1) first
        (opening ++ '\x22' :: (text ++ '\x22' :: (blanks ++ ':' :: cs))) =
      ((.ok key, d) :: ds, none, rest) := by
  have hquote := skipSpaces_cons (c := '\x22') rfl (text ++ '\x22' :: (blanks ++ ':' :: cs))
  have hcolon : skipSpaces (blanks ++ ':' :: cs) = ':' :: cs := by
    rw [skipSpaces_append h, skipSpaces_cons rfl]
  have hname := readQuoted_append name (blanks ++ ':' :: cs)
  unfold readMembers
  cases opens with
  | first _ hopening => simp [skipSpaces_append hopening, hquote, hname, hcolon, hd, hds]
  | later before behind hbefore hbehind =>
    have hcomma := skipSpaces_cons (c := ',') rfl
      (behind ++ '\x22' :: (text ++ '\x22' :: (blanks ++ ':' :: cs)))
    rw [List.append_assoc, List.cons_append, skipSpaces_append hbefore, hcomma]
    simp only [skipSpaces_append hbehind, hquote, hname, hcolon, hd, hds]

end

mutual

theorem Spells.length_lt {t : Tree} {cs rest : List Char} :
    Spells t cs rest → rest.length < cs.length
  | .blank _ _ value => Nat.lt_succ_of_lt value.length_lt
  | .null rest | .bool true rest | .bool false rest => by
    simp only [List.length_append]
    exact Nat.lt_add_of_pos_left (Nat.succ_pos _)
  | .int n rest _ _ _ => by
    obtain ⟨c, more, hcons, -⟩ := intChars_cons n
    simp [hcons]
  | .string _ _ _ _ => by
    simp only [List.length_cons, List.length_append]
    omega
  | .array h => Nat.lt_succ_of_lt h.length_lt
  | .object h => Nat.lt_succ_of_lt h.length_lt

theorem SpellsItems.length_lt {first : Bool} {ts : List Tree} {cs rest : List Char} :
    SpellsItems first ts cs rest → rest.length < cs.length
  | .close _ _ _ _ => by
    simp only [List.length_cons, List.length_append]
    omega
  | .item _ value others => by
    have hvalue := value.length_lt
    have hothers := others.length_lt
    rw [List.length_append]
    omega

theorem SpellsMembers.length_lt {first : Bool} {ts : List (String × Tree)} {cs rest : List Char} :
    SpellsMembers first ts cs rest → rest.length < cs.length
  | .close _ _ _ _ => by
    simp only [List.length_cons, List.length_append]
    omega
  | .member _ _ _ value others => by
    have hvalue := value.length_lt
    have hothers := others.length_lt
    simp only [List.length_cons, List.length_append]
    omega

end

/-! ### One value -/

theorem readLiteral_append (value : List Char → Document) (word rest : List Char) :
    readLiteral value word (word ++ rest) = (value rest, rest) := by
  induction word with
  | nil => rfl
  | cons c word ih => simp only [List.cons_append, readLiteral, if_true, ih]

section

variable (fuel : Nat) (rest : List Char)

theorem readValue_null :
    readValue (fuel + 1) ("null".toList ++ rest) = (.null rest, rest) :=
  readLiteral_append .null ['u', 'l', 'l'] rest

theorem readValue_bool (b : Bool) :
    readValue (fuel + 1) ((if b then "true" else "false").toList ++ rest) =
      (.bool b rest, rest) := by
  cases b with
  | true => exact readLiteral_append (.bool true) ['r', 'u', 'e'] rest
  | false => exact readLiteral_append (.bool false) ['a', 'l', 's', 'e'] rest

theorem readValue_digit {c : Char} (h : isAsciiDigit c = true) (cs : List Char) :
    readValue (fuel + 1) (c :: cs) = readNumber false (c :: cs) := by
  rw [readValue, skipSpaces_cons (not_isSpace_of_digit h)]
  split
  case h_1 heq => exact nomatch heq
  case h_9 heq =>
    obtain ⟨rfl, rfl⟩ := List.cons.inj heq
    exact if_pos h
  all_goals
    rename_i heq
    obtain ⟨rfl, rfl⟩ := List.cons.inj heq
    exact absurd h (by decide)

theorem readValue_int {n : Int} {rest : List Char} (low : -2 ^ 63 ≤ n) (high : n < 2 ^ 64)
    (ends : EndsNumber rest) : ∃ x : Numeral, x.toNumber = .ok (.int n) ∧
      readValue (fuel + 1) (intChars n ++ rest) = (.number x rest, rest) := by
  cases n with
  | ofNat n =>
    have hlt : n < 2 ^ 64 := Int.ofNat_lt.mp high
    refine ⟨_, toNumber_natChars false hlt, ?_⟩
    obtain ⟨c, more, hcons, hc⟩ := natChars_cons n
    rw [← readNumber_natChars false n ends, intChars, hcons, List.cons_append]
    exact readValue_digit fuel hc _
  | negSucc n =>
    have hlt : n + 1 < 2 ^ 64 := by omega
    have hsmall : ¬ (n + 1 = 0 ∨ Nat.pow 2 63 < n + 1) := by
      have : Nat.pow 2 63 = 2 ^ 63 := rfl
      omega
    refine ⟨_, (toNumber_natChars true hlt).trans ?_, readNumber_natChars true (n + 1) ends⟩
    simp only [Numeral.toWhole, Bool.not_true, Bool.false_eq_true, if_false]
    rw [if_neg hsmall]
    rfl

theorem readValue_string {s : String} {text : List Char} (h : SpellsString s text) :
    readValue (fuel + 1) ('\x22' :: (text ++ '\x22' :: rest)) = (.string (.ok s) rest, rest) := by
  have hquote := skipSpaces_cons (c := '\x22') rfl (text ++ '\x22' :: rest)
  rw [readValue, hquote]
  simp only [readQuoted_append h]

end

mutual

/-- A value that is spelled is read, and nothing behind it. Where nothing is taken off the text a
step goes to the value inside, so there are two for each character. -/
theorem Spells.reads {t : Tree} {cs rest : List Char} :
    Spells t cs rest → ∀ fuel, 2 * cs.length ≤ fuel + 1 + 2 * rest.length →
      ∃ d, readValue (fuel + 1) cs = (d, rest) ∧ Says d t
  | @Spells.blank t cs rest c h value, fuel, hfuel => by
    have hblank : readValue (fuel + 1) (c :: cs) = readValue (fuel + 1) cs := by
      rw [← readValue_skipSpaces, skipSpaces_blank h, readValue_skipSpaces]
    rw [List.length_cons] at hfuel
    rw [hblank]
    exact value.reads fuel (by omega)
  | .null rest, fuel, _ => ⟨_, readValue_null fuel rest, .null rest⟩
  | .bool b rest, fuel, _ => ⟨_, readValue_bool fuel rest b, .bool b rest⟩
  | .int n rest low high ends, fuel, _ =>
    have ⟨x, hx, hread⟩ := readValue_int fuel low high ends
    ⟨_, hread, .int x rest n hx⟩
  | .string s text rest h, fuel, _ => ⟨_, readValue_string fuel rest h, .string s rest⟩
  | @Spells.array _ cs _ h, fuel, hfuel => by
    have hlength := h.length_lt
    rw [List.length_cons] at hfuel
    obtain ⟨fuel, rfl⟩ := Nat.exists_eq_succ_of_ne_zero (show fuel ≠ 0 by omega)
    obtain ⟨ds, hds, said⟩ := h.reads fuel (by omega)
    refine ⟨_, ?_, .array ('[' :: cs) said⟩
    rw [readValue, skipSpaces_cons rfl]
    simp only [hds]
  | @Spells.object _ cs _ h, fuel, hfuel => by
    have hlength := h.length_lt
    rw [List.length_cons] at hfuel
    obtain ⟨fuel, rfl⟩ := Nat.exists_eq_succ_of_ne_zero (show fuel ≠ 0 by omega)
    obtain ⟨ds, hds, said⟩ := h.reads fuel (by omega)
    refine ⟨_, ?_, .object ('\x7b' :: cs) said⟩
    rw [readValue, skipSpaces_cons rfl]
    simp only [hds]

theorem SpellsItems.reads {first : Bool} {ts : List Tree} {cs rest : List Char} :
    SpellsItems first ts cs rest → ∀ fuel, 2 * cs.length ≤ fuel + 2 * rest.length →
      ∃ ds, readItems (fuel + 1) first cs = (ds, none, rest) ∧ SaysItems ds ts
  | .close first _ rest h, fuel, _ => ⟨[], readItems_close first fuel rest h, .nil⟩
  | .item opens value others, fuel, hfuel => by
    have hvalue := value.length_lt
    have hothers := others.length_lt
    rw [List.length_append] at hfuel
    obtain ⟨fuel, rfl⟩ := Nat.exists_eq_succ_of_ne_zero (show fuel ≠ 0 by omega)
    obtain ⟨d, hd, said⟩ := value.reads fuel (by omega)
    obtain ⟨ds, hds, saidItems⟩ := others.reads fuel (by omega)
    exact ⟨d :: ds, readItems_item opens value hd hds, .cons said saidItems⟩

theorem SpellsMembers.reads {first : Bool} {ts : List (String × Tree)} {cs rest : List Char} :
    SpellsMembers first ts cs rest → ∀ fuel, 2 * cs.length ≤ fuel + 2 * rest.length →
      ∃ ds, readMembers (fuel + 1) first cs = (ds, none, rest) ∧ SaysMembers ds ts
  | .close first _ rest h, fuel, _ => ⟨[], readMembers_close first fuel rest h, .nil⟩
  | .member opens name h value others, fuel, hfuel => by
    have hvalue := value.length_lt
    have hothers := others.length_lt
    simp only [List.length_cons, List.length_append] at hfuel
    obtain ⟨fuel, rfl⟩ := Nat.exists_eq_succ_of_ne_zero (show fuel ≠ 0 by omega)
    obtain ⟨d, hd, said⟩ := value.reads fuel (by omega)
    obtain ⟨ds, hds, saidMembers⟩ := others.reads fuel (by omega)
    exact ⟨(.ok _, d) :: ds, readMembers_member opens name h hd hds, .cons _ said saidMembers⟩

end

theorem TextOf.reads {t : Tree} {text : String} (h : TextOf t text) :
    ∃ d blanks, readDocument text.toList = (d, blanks) ∧ Says d t ∧ skipSpaces blanks = [] := by
  obtain ⟨blanks, spells, hblanks⟩ := h
  obtain ⟨d, hd, said⟩ := spells.reads (2 * text.toList.length + 1) (by omega)
  refine ⟨d, blanks, hd, said, ?_⟩
  rw [← List.append_nil blanks, skipSpaces_append hblanks]
  rfl

end RowStore.Json
