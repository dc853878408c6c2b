import RowStore.Number.Reader
import RowStore.Proofs.Number.Numeral
import RowStore.Proofs.Number.Shortest

/-!
# The value of a number

What a text in decimal notation and what a floating-point number stand for, as exact ratios. The
text of a finite number stands for a ratio that rounds to this number.
-/

namespace RowStore

open Text (isAsciiDigit digitsValue)

def signedRatio (negative : Bool) (q : ℚ) : ℚ := if negative then -q else q

/-- What a text in decimal notation stands for. -/
def numberValue? (cs : List Char) : Option ℚ :=
  let (negative, rest) := splitSign cs
  let whole := rest.takeWhile isAsciiDigit
  let (places, rest) := match rest.dropWhile isAsciiDigit with
    | '.' :: r => (r.takeWhile isAsciiDigit, r.dropWhile isAsciiDigit)
    | r => ([], r)
  if whole.isEmpty && places.isEmpty then none
  else (Binary64.readExponent? rest).map fun e =>
    signedRatio negative (digitsValue (whole ++ places) * 10 ^ (e - places.length : ℤ))

namespace Binary64

/-- What a finite number stands for. Both zeros stand for zero. -/
def value (x : Binary64) : ℚ :=
  signedRatio x.negative (x.significand * 2 ^ ((x.scale : ℤ) - 1074))

/-- The number nearest to a ratio. -/
def nearest (q : ℚ) : Binary64 := ofRatio (decide (q < 0)) q.num.natAbs q.den

end Binary64

/-! ## Digits -/

theorem digitsValue_natChars (n : Nat) : digitsValue (natChars n) = n :=
  Nat.ofDigitChars_toDigits (by decide) (by decide)

theorem digitsValue_append (cs ds : List Char) :
    digitsValue (cs ++ ds) = digitsValue cs * 10 ^ ds.length + digitsValue ds := by
  induction ds using List.reverseRecOn with
  | nil => simp [digitsValue]
  | append_singleton ds d ih =>
    rw [← List.append_assoc, Text.digitsValue_append_one, Text.digitsValue_append_one, ih,
      List.length_append, List.length_singleton, Nat.pow_succ]
    ring

theorem digitsValue_zeros (n : Nat) : digitsValue (List.replicate n '0') = 0 := by
  induction n with
  | zero => rfl
  | succ n ih =>
    rw [List.replicate_succ', Text.digitsValue_append_one, ih]
    rfl

/-! ## Texts -/

theorem splitSign_digit {c : Char} (h : isAsciiDigit c = true) (cs : List Char) :
    splitSign (c :: cs) = (false, c :: cs) := by
  unfold splitSign
  split
  case h_1 heq =>
    rw [(List.cons.inj heq).1] at h
    cases h
  case h_2 heq =>
    rw [(List.cons.inj heq).1] at h
    cases h
  case h_3 => rfl

theorem numberValue?_digits (negative : Bool) {whole : List Char} (hwhole : IsDigits whole)
    (places : List Char) (hplaces : ∀ d ∈ places, isAsciiDigit d = true) :
    numberValue? ((if negative then ['-'] else []) ++ (whole ++
      if places = [] then [] else '.' :: places)) =
      some (signedRatio negative
        (digitsValue (whole ++ places) * 10 ^ (-(places.length : ℤ)))) := by
  obtain ⟨c, ds, rfl⟩ := List.exists_cons_of_ne_nil hwhole.1
  have hsign : splitSign ((if negative then ['-'] else []) ++ ((c :: ds) ++
      if places = [] then [] else '.' :: places)) =
      (negative, (c :: ds) ++ if places = [] then [] else '.' :: places) := by
    cases negative with
    | false => exact splitSign_digit (hwhole.2 c List.mem_cons_self) _
    | true => rfl
  have hrest : ∀ d, (if places = [] then [] else '.' :: places).head? = some d →
      isAsciiDigit d = false := by
    intro d hd
    split at hd
    · cases hd
    · obtain rfl := Option.some.inj hd
      rfl
  obtain ⟨htake, hdrop⟩ := span_append isAsciiDigit _ _ hwhole.2 hrest
  have hnothing : ∀ c, ([] : List Char).head? = some c → isAsciiDigit c = false := nofun
  have hall := span_append isAsciiDigit _ _ hplaces hnothing
  rw [List.append_nil] at hall
  unfold numberValue?
  simp only [hsign, htake, hdrop]
  by_cases hempty : places = []
  · simp [hempty, Binary64.readExponent?]
  · simp [hempty, hall, Binary64.readExponent?]

theorem numberValue?_intText (i : Int) : numberValue? (intText i).toList = some (i : ℚ) := by
  have hdigits (negative : Bool) (n : Nat) :
      numberValue? ((if negative then ['-'] else []) ++ natChars n) =
        some (signedRatio negative n) := by
    have h := numberValue?_digits negative (isDigits_natChars n) [] (by simp)
    simpa [digitsValue_natChars] using h
  rw [intText, String.toList_ofList]
  cases i with
  | ofNat n => exact (hdigits false n).trans (by simp [signedRatio])
  | negSucc n =>
    refine (hdigits true (n + 1)).trans ?_
    simp [signedRatio, Int.negSucc_eq]

def Decimal.value (d : Decimal) : ℚ := d.digits * 10 ^ d.exponent

theorem Decimal.value_eq (d : Decimal) : d.value = d.num / d.den := by
  unfold value num den
  simp only [Nat.pow_eq, Nat.cast_mul, Nat.cast_pow, Nat.cast_ofNat]
  rcases Int.le_total 0 d.exponent with h | h
  · obtain ⟨n, hn⟩ := Int.eq_ofNat_of_zero_le h
    simp [hn]
  · obtain ⟨n, hn⟩ := Int.exists_eq_neg_ofNat h
    simp [hn, div_eq_mul_inv]

theorem numberValue?_positional (negative : Bool) {ds : List Char} (hds : IsDigits ds) (k : Int) :
    numberValue? ((if negative then ['-'] else []) ++ Decimal.positionalChars .sql ds k) =
      some (signedRatio negative (digitsValue ds * 10 ^ k)) := by
  rcases Int.le_total 0 k with hk | hk
  · -- Zeros behind the digits, and no point.
    obtain ⟨n, rfl⟩ := Int.eq_ofNat_of_zero_le hk
    have hchars : Decimal.positionalChars .sql ds n = ds ++ List.replicate n '0' := by
      simp [Decimal.positionalChars, FloatLayout.sql]
    have h := numberValue?_digits negative (isDigits_append _ _ hds (all_replicate_zero n)) []
      (by simp)
    rw [hchars]
    simpa [digitsValue_append, digitsValue_zeros] using h
  · obtain ⟨n, rfl⟩ := Int.exists_eq_neg_ofNat hk
    rcases Nat.eq_zero_or_pos n with rfl | hpositive
    · have hchars : Decimal.positionalChars .sql ds (-(0 : Nat)) = ds := by
        simp [Decimal.positionalChars, FloatLayout.sql]
      have h := numberValue?_digits negative hds [] (by simp)
      rw [hchars]
      simpa using h
    by_cases hfew : n < ds.length
    · -- The point stands among the digits.
      have hchars : Decimal.positionalChars .sql ds (-n) =
          ds.take (ds.length - n) ++ '.' :: ds.drop (ds.length - n) := by
        rw [Decimal.positionalChars, if_neg (by omega), Int.neg_neg, Int.toNat_natCast]
        exact if_pos hfew
      have hlength : (ds.drop (ds.length - n)).length = n := by
        rw [List.length_drop]
        omega
      have hne : ds.drop (ds.length - n) ≠ [] := by
        rw [← List.length_pos_iff, hlength]
        exact hpositive
      have h := numberValue?_digits negative (isDigits_take ds (ds.length - n) hds (by omega))
        (ds.drop (ds.length - n)) fun d hd => hds.2 d (List.mem_of_mem_drop hd)
      rw [if_neg hne, List.take_append_drop, hlength] at h
      rw [hchars, h]
    · -- Zeros stand between the point and the digits.
      have hchars : Decimal.positionalChars .sql ds (-n) =
          ['0'] ++ '.' :: (List.replicate (n - ds.length) '0' ++ ds) := by
        rw [Decimal.positionalChars, if_neg (by omega), Int.neg_neg, Int.toNat_natCast]
        exact if_neg hfew
      have hlength : (List.replicate (n - ds.length) '0' ++ ds).length = n := by
        rw [List.length_append, List.length_replicate]
        omega
      have hvalue : digitsValue (['0'] ++ (List.replicate (n - ds.length) '0' ++ ds)) =
          digitsValue ds := by
        rw [digitsValue_append, digitsValue_append, digitsValue_zeros]
        simp [digitsValue]
      have hplaces : ∀ d ∈ List.replicate (n - ds.length) '0' ++ ds, isAsciiDigit d = true := by
        intro d hd
        rcases List.mem_append.mp hd with hd | hd
        · exact all_replicate_zero _ d hd
        · exact hds.2 d hd
      have hne : List.replicate (n - ds.length) '0' ++ ds ≠ [] :=
        List.append_ne_nil_of_right_ne_nil _ hds.1
      have h := numberValue?_digits negative isDigits_zero _ hplaces
      rw [if_neg hne, hvalue, hlength] at h
      rw [hchars, h]

theorem Decimal.chars_sql (d : Decimal) :
    d.chars .sql = Decimal.positionalChars .sql (natChars d.digits) d.exponent := by
  unfold Decimal.chars
  exact if_pos rfl

namespace Binary64

variable (x : Binary64)

theorem isZero_iff : x.isZero = true ↔ x.significand = 0 := by
  have hword := x.word_eq
  have hscale : x.scale ≤ 2046 := by
    have hfield : x.exponentField < 2 ^ 11 := Nat.mod_lt _ (by decide)
    unfold scale
    omega
  have hsignificand := x.significand_lt
  have hle := x.le_significand
  unfold signWord at hword
  unfold isZero
  simp only [Nat.pow_eq, beq_iff_eq] at hword ⊢
  split at hword <;> omega

theorem value_of_isZero (h : x.isZero = true) : x.value = 0 := by
  rw [value, x.isZero_iff.mp h]
  simp [signedRatio]

theorem chars_of_not_zero (layout : FloatLayout) (h : x.isZero = false) :
    x.chars layout =
      (if x.negative then ['-'] else []) ++ (x.shortest layout.tie).chars layout := by
  unfold chars
  rw [h]
  rfl

theorem numberValue?_text (h : x.isZero = false) :
    numberValue? (x.text .sql).toList =
      some (signedRatio x.negative (x.shortest .up).value) := by
  rw [text, String.toList_ofList, x.chars_of_not_zero .sql h, Decimal.chars_sql,
    numberValue?_positional x.negative (isDigits_natChars _), digitsValue_natChars]
  rfl

theorem numberValue?_text_zero (hzero : x.isZero = true) :
    numberValue? (x.text .sql).toList = some 0 := by
  have h := numberValue?_digits x.negative isDigits_zero [] (by simp)
  rw [text, String.toList_ofList, chars]
  simp only [hzero, if_true]
  refine h.trans ?_
  simp [signedRatio, digitsValue]

/-! ## The nearest number -/

theorem Interval.contains_mul_right (i : Interval) (step a b : Nat) {g : Nat} (hg : 0 < g) :
    i.contains (b * g) step (a * g) = i.contains b step a := by
  have hlt (m n : Nat) : m * g < n * g ↔ m < n := Nat.mul_lt_mul_right hg
  have heq (m n : Nat) : m * g = n * g ↔ m = n := Nat.mul_left_inj (Nat.ne_of_gt hg)
  unfold contains
  simp only [← Nat.mul_assoc, Nat.mul_right_comm a, hlt, beq_eq_decide, heq]

theorem num_pos {num den : Nat} (hpositive : 0 < x.significand) (hden : 0 < den)
    (h : x.interval.contains den (Nat.pow 2 1076) num = true) : 0 < num := by
  obtain ⟨hlow, -, -⟩ := of_contains h
  have hunit : 0 < 2 ^ x.scale * den := Nat.mul_pos (Nat.two_pow_pos _) hden
  have hbelow : x.below * (2 ^ x.scale * den) ≤ 2 * (2 ^ x.scale * den) :=
    Nat.mul_le_mul_right _ x.below_le
  have hone : 1 * (2 ^ x.scale * den) ≤ x.significand * (2 ^ x.scale * den) :=
    Nat.mul_le_mul_right _ hpositive
  by_contra hzero
  rw [Nat.eq_zero_of_not_pos hzero] at hlow
  omega

theorem nearest_signedRatio (negative : Bool) {q : ℚ} (hq : 0 < q) :
    nearest (signedRatio negative q) = ofRatio negative q.num.natAbs q.den := by
  unfold nearest signedRatio
  cases negative with
  | false => simp [Rat.not_lt.mpr hq.le]
  | true => simp [hq]

theorem nearest_of_contains {num den : Nat} (hfinite : x.isFinite = true)
    (hpositive : 0 < x.significand) (hden : 0 < den)
    (h : x.interval.contains den (Nat.pow 2 1076) num = true) :
    nearest (signedRatio x.negative (num / den)) = x := by
  have hnum := x.num_pos hpositive hden h
  have hq : (0 : ℚ) < num / den := by positivity
  -- Rounding sees the ratio in lowest terms, which is as much in the interval.
  obtain ⟨a, b, hcoprime, ha, hb⟩ := Nat.exists_coprime num den
  have hg : 0 < num.gcd den := Nat.gcd_pos_of_pos_left den hnum
  generalize num.gcd den = g at ha hb hg
  subst ha hb
  have hbpos : 0 < b := Nat.pos_of_mul_pos_right hden
  rw [Interval.contains_mul_right _ _ a b hg] at h
  have hratio : ((a * g : Nat) : ℚ) / (b * g : Nat) = (a : ℤ) / (b : ℤ) := by
    push_cast
    exact mul_div_mul_right _ _ (by positivity)
  have hnumerator : ((a : ℤ) / (b : ℤ) : ℚ).num = a :=
    Rat.num_div_eq_of_coprime (Int.natCast_pos.mpr hbpos) hcoprime
  have hdenominator : ((a : ℤ) / (b : ℤ) : ℚ).den = b :=
    Int.natCast_inj.mp (Rat.den_div_eq_of_coprime (Int.natCast_pos.mpr hbpos) hcoprime)
  rw [nearest_signedRatio _ hq, hratio, hnumerator, hdenominator, Int.natAbs_natCast]
  exact ofRatio_eq hfinite hbpos h

theorem nearest_shortest (hfinite : x.isFinite = true) (h : x.isZero = false) :
    nearest (signedRatio x.negative (x.shortest .up).value) = x := by
  have hpositive : 0 < x.significand := by
    rw [Nat.pos_iff_ne_zero, ne_eq, ← x.isZero_iff, h]
    exact Bool.false_ne_true
  rw [Decimal.value_eq]
  exact x.nearest_of_contains hfinite hpositive (Nat.pow_pos (by decide))
    (x.contains_shortest .up hfinite hpositive)

theorem nearest_zero : nearest 0 = zero false := by
  have hquotient (b : Nat) : roundedQuotient 0 b = 0 := by simp [roundedQuotient]
  unfold nearest ofRatio
  simp only [Rat.num_zero, Int.natAbs_zero, Nat.zero_mul, Nat.zero_div, Nat.log2_zero, hquotient]
  rfl

/-- The text of a finite number, read as a floating-point number, is the number. The sign of zero
is lost. -/
theorem exists_numberValue?_text (hfinite : x.isFinite = true) :
    ∃ q, numberValue? (x.text .sql).toList = some q ∧ (nearest q).isFinite = true ∧
      (nearest q).value = x.value := by
  cases h : x.isZero with
  | true =>
    refine ⟨0, x.numberValue?_text_zero h, ?_⟩
    rw [nearest_zero, x.value_of_isZero h]
    exact ⟨rfl, value_of_isZero _ rfl⟩
  | false =>
    refine ⟨_, x.numberValue?_text h, ?_⟩
    rw [x.nearest_shortest hfinite h]
    exact ⟨hfinite, rfl⟩

end Binary64

end RowStore
