import RowStore.Calendar.Reader
import RowStore.Proofs.Number.Value

/-!
# Dates with a time read back

The text of a date with a time of day reads back as the same date and time. A leap second can only
follow second 59, which is where reading puts it.
-/

namespace RowStore

open Text (isAsciiDigit isBlank digitsValue)

/-! ## Padded numbers -/

theorem length_paddedChars {width n : Nat} (hwidth : 0 < width) (h : n < 10 ^ width) :
    (paddedChars width n).length = width := by
  have hle : (natChars n).length ≤ width := (Nat.length_toDigits_le_iff (by decide) hwidth).mpr h
  rw [paddedChars, List.length_append, List.length_replicate]
  omega

theorem isDigits_paddedChars (width n : Nat) : IsDigits (paddedChars width n) := by
  refine ⟨List.append_ne_nil_of_right_ne_nil _ (isDigits_natChars n).1, ?_⟩
  intro d hd
  rcases List.mem_append.mp hd with hd | hd
  · exact all_replicate_zero _ d hd
  · exact (isDigits_natChars n).2 d hd

theorem digitsValue_paddedChars (width n : Nat) : digitsValue (paddedChars width n) = n := by
  rw [paddedChars, digitsValue_append, digitsValue_zeros, digitsValue_natChars, Nat.zero_mul,
    Nat.zero_add]

theorem dropWhile_isBlank {ds : List Char} (hds : IsDigits ds) (rest : List Char) :
    (ds ++ rest).dropWhile isBlank = ds ++ rest := by
  obtain ⟨c, ds, rfl⟩ := List.exists_cons_of_ne_nil hds.1
  exact List.dropWhile_cons_of_neg (by simp [isBlank_of_isAsciiDigit (hds.2 c List.mem_cons_self)])

namespace DateTime

/-! ## Parts -/

theorem readPart?_paddedChars {width n : Nat} (hwidth : 0 < width) (h : n < 10 ^ width)
    (rest : List Char) : readPart? width (paddedChars width n ++ rest) = some (n, rest) := by
  have hdigits := isDigits_paddedChars width n
  have hlength := length_paddedChars hwidth h
  have htake : ((paddedChars width n ++ rest).take width).takeWhile isAsciiDigit =
      paddedChars width n := by
    rw [List.take_left' hlength]
    exact List.takeWhile_eq_self_iff.mpr hdigits.2
  have hdrop : (paddedChars width n ++ rest).drop (paddedChars width n).length = rest :=
    List.drop_left
  unfold readPart?
  simp only [dropWhile_isBlank hdigits, htake, hdrop, digitsValue_paddedChars]
  exact if_neg (by simp [hdigits.1])

theorem readPart?_blank (width : Nat) (cs : List Char) :
    readPart? width (' ' :: cs) = readPart? width cs := by
  unfold readPart?
  rw [List.dropWhile_cons_of_pos (by decide)]

theorem readYear?_digits {ds : List Char} (hds : IsDigits ds) (rest : List Char) :
    readYear? (ds ++ rest) = (readPart? 4 (ds ++ rest)).map fun (n, r) => ((n : Int), r) := by
  have hblank := dropWhile_isBlank hds rest
  obtain ⟨c, ds, rfl⟩ := List.exists_cons_of_ne_nil hds.1
  have hc := hds.2 c List.mem_cons_self
  unfold readYear?
  rw [hblank]
  split
  case h_1 heq =>
    rw [(List.cons.inj heq).1] at hc
    cases hc
  case h_2 heq =>
    rw [(List.cons.inj heq).1] at hc
    cases hc
  case h_3 => rfl

theorem signed_digits {ds rest : List Char} (hds : IsDigits ds)
    (hrest : ∀ c, rest.head? = some c → isAsciiDigit c = false) (sign : Int) :
    readYear?.signed (ds ++ rest) sign = some (sign * digitsValue ds, rest) := by
  obtain ⟨htake, hdrop⟩ := span_append isAsciiDigit _ _ hds.2 hrest
  unfold readYear?.signed
  simp only [htake, hdrop]
  exact if_neg (by simp [hds.1])

theorem readYear?_yearChars (year : Int) {rest : List Char}
    (hrest : ∀ c, rest.head? = some c → isAsciiDigit c = false) :
    readYear? (yearChars year ++ rest) = some (year, rest) := by
  unfold yearChars
  split
  case isTrue hyear =>
    simp only [Bool.and_eq_true, decide_eq_true_eq] at hyear
    have hnat : (year.toNat : Int) = year := Int.toNat_of_nonneg hyear.1
    rw [readYear?_digits (isDigits_paddedChars 4 year.toNat),
      readPart?_paddedChars (by decide) (by omega)]
    simp only [Option.map_some, hnat]
  case isFalse hyear =>
    have hsigned := signed_digits (isDigits_paddedChars 4 year.natAbs) hrest
    rw [digitsValue_paddedChars] at hsigned
    split
    case isTrue hneg =>
      refine (hsigned (-1)).trans ?_
      rw [show (-1 : Int) * year.natAbs = year by omega]
    case isFalse hpos =>
      refine (hsigned 1).trans ?_
      rw [show (1 : Int) * year.natAbs = year by omega]

theorem readFraction?_padded {width n : Nat} (hwidth : 0 < width) (hnine : width ≤ 9)
    (h : n < 10 ^ width) :
    readFraction? ('.' :: paddedChars width n) = some (n * 10 ^ (9 - width), []) := by
  have hdigits := isDigits_paddedChars width n
  have hlength := length_paddedChars hwidth h
  have htake : ((paddedChars width n).take 9).takeWhile isAsciiDigit = paddedChars width n := by
    rw [List.take_of_length_le (by omega)]
    exact List.takeWhile_eq_self_iff.mpr hdigits.2
  have hdrop : (paddedChars width n).dropWhile isAsciiDigit = [] :=
    List.dropWhile_eq_nil_iff.mpr hdigits.2
  unfold readFraction?
  simp only [htake, hdrop, digitsValue_paddedChars, hlength, Nat.pow_eq]
  exact if_neg (by simp [hdigits.1])

theorem readFraction?_fractionChars {n : Nat} (h : n < 1000000000) :
    readFraction? (fractionChars n) = some (n, []) := by
  unfold fractionChars
  split
  case isTrue hzero =>
    rw [hzero]
    rfl
  case isFalse =>
    split
    case isTrue hmilli =>
      rw [readFraction?_padded (by decide) (by decide) (by omega)]
      rw [show n / 1000000 * 10 ^ (9 - 3) = n by omega]
    case isFalse =>
      split
      case isTrue hmicro =>
        rw [readFraction?_padded (by decide) (by decide) (by omega)]
        rw [show n / 1000 * 10 ^ (9 - 6) = n by omega]
      case isFalse =>
        rw [readFraction?_padded (by decide) (by decide) (by omega)]
        rw [show n * 10 ^ (9 - 9) = n by omega]

/-! ## Days and times -/

theorem readDay?_dateChars (t : DateTime) (hmonth : t.month < 100) (hday : t.day < 100)
    (rest : List Char) :
    readDay? (t.dateChars ++ rest) = some ((t.year, t.month, t.day), rest) := by
  have hmark : ∀ cs : List Char, ∀ c, ('-' :: cs).head? = some c → isAsciiDigit c = false := by
    intro cs c hc
    obtain rfl := Option.some.inj hc
    rfl
  unfold readDay? dateChars
  simp only [List.append_assoc, List.cons_append, readYear?_yearChars t.year (hmark _),
    Option.bind_eq_bind, Option.bind_some, readMark?, if_true,
    readPart?_paddedChars (show 0 < 2 by decide) hmonth,
    readPart?_paddedChars (show 0 < 2 by decide) hday]
  rfl

theorem day_le {year : Int} {month day : Nat} (h : isDate year month day = true) :
    month ≤ 12 ∧ day ≤ 31 := by
  simp only [isDate, Bool.and_eq_true, decide_eq_true_eq] at h
  have hdays : daysInMonth year month ≤ 31 := by
    unfold daysInMonth
    split
    · split <;> omega
    all_goals omega
  omega

/-- A leap second stands only where it can be, if there is one. -/
def Placed (t : DateTime) : Prop := t.nanosecond < 1000000000 ∨ t.second = 59

theorem read?_chars (t : DateTime) (h : t.isValid = true) (hplaced : t.Placed) :
    read? (t.chars ' ') = some t := by
  have hvalid := h
  simp only [isValid, isTime, Bool.and_eq_true, decide_eq_true_eq] at h
  obtain ⟨hdate, ⟨⟨hhour, hminute⟩, hsecond⟩, hnano⟩ := h
  obtain ⟨hmonth, hday⟩ := day_le hdate
  have hrest : t.nanosecond % 1000000000 < 1000000000 := Nat.mod_lt _ (by decide)
  -- The second that is read, and where it puts the nanoseconds.
  have hsame : (⟨t.year, t.month, t.day, t.hour, t.minute,
      if t.second + t.nanosecond / 1000000000 = 60 then 59
        else t.second + t.nanosecond / 1000000000,
      if t.second + t.nanosecond / 1000000000 = 60 then t.nanosecond % 1000000000 + 1000000000
        else t.nanosecond % 1000000000⟩ : DateTime) = t := by
    unfold Placed at hplaced
    obtain ⟨year, month, day, hour, minute, second, nanosecond⟩ := t
    simp only [mk.injEq, true_and] at hplaced hsecond hnano ⊢
    split <;> omega
  unfold read? chars timeChars
  simp only [readDay?_dateChars t (by omega) (by omega), Option.bind_eq_bind, Option.bind_some,
    readPart?_blank, readMark?, if_true,
    readPart?_paddedChars (show 0 < 2 by decide) (show t.hour < 10 ^ 2 by omega),
    readPart?_paddedChars (show 0 < 2 by decide) (show t.minute < 10 ^ 2 by omega),
    readPart?_paddedChars (show 0 < 2 by decide)
      (show t.second + t.nanosecond / 1000000000 < 10 ^ 2 by omega),
    readFraction?_fractionChars hrest, hsame, hvalid]
  rfl

end DateTime

end RowStore
