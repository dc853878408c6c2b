import RowStore.Proofs.Wire.Datum
import RowStore.Query.Basic

/-!
# Whole numbers from JSON

A whole number that has a signed word keeps its value. A larger one becomes the nearest
floating-point number, and its literal is a multiple of a thousand.
-/

namespace RowStore

namespace Binary64

/-! ## Numbers from `2 ^ 63` up to `2 ^ 64` -/

theorem div_le_roundedQuotient (a b : Nat) :
    a / b ≤ roundedQuotient a b ∧ roundedQuotient a b ≤ a / b + 1 := by
  unfold roundedQuotient
  dsimp only
  split <;> omega

theorem log2_mul_two_pow {n k c : Nat} (hlow : 2 ^ k ≤ n) (hhigh : n < 2 ^ (k + 1)) :
    (n * 2 ^ c).log2 = k + c := by
  refine log2_eq ?_ ?_
  · rw [Nat.pow_add]
    exact Nat.mul_le_mul_right _ hlow
  · rw [Nat.add_right_comm, Nat.pow_add]
    exact Nat.mul_lt_mul_of_pos_right hhigh (Nat.two_pow_pos _)

theorem exists_roundedQuotient {n : Nat} (c : Nat) (hlow : 2 ^ 63 ≤ n) (hhigh : n < 2 ^ 64) :
    ∃ r, roundedQuotient (n * 2 ^ c) (1 * 2 ^ (11 + c)) = r ∧ 2 ^ 52 ≤ r ∧ r ≤ 2 ^ 53 := by
  have hquotient : n * 2 ^ c / (1 * 2 ^ (11 + c)) = n / 2 ^ 11 := by
    rw [Nat.one_mul, Nat.pow_add]
    exact Nat.mul_div_mul_right _ _ (Nat.two_pow_pos _)
  obtain ⟨hle, hle'⟩ := div_le_roundedQuotient (n * 2 ^ c) (1 * 2 ^ (11 + c))
  rw [hquotient] at hle hle'
  exact ⟨_, rfl, by omega, by omega⟩

theorem word_ofWord {r : Nat} (h : r ≤ 2 ^ 53) :
    (ofWord (1085 * 2 ^ 52 + r)).word = 1085 * 2 ^ 52 + r :=
  UInt64.toNat_ofNat_of_lt' (show _ < 2 ^ 64 by omega)

/-- The patterns of the numbers that count steps of `2 ^ 11`, and of the one after them. -/
theorem parts_ofWord {r : Nat} (hlow : 2 ^ 52 ≤ r) (hhigh : r ≤ 2 ^ 53) :
    (ofWord (1085 * 2 ^ 52 + r)).negative = false ∧
      (ofWord (1085 * 2 ^ 52 + r)).isFinite = true ∧
      1085 ≤ (ofWord (1085 * 2 ^ 52 + r)).scale ∧ (ofWord (1085 * 2 ^ 52 + r)).scale ≤ 1086 := by
  unfold negative isFinite scale exponentField
  rw [word_ofWord hhigh]
  simp only [Nat.pow_eq, bne_iff_ne, decide_eq_false_iff_not]
  omega

theorem scale_ofRatio_whole {n : Nat} (hlow : 2 ^ 63 ≤ n) (hhigh : n < 2 ^ 64) :
    (ofRatio false n 1).negative = false ∧ (ofRatio false n 1).isFinite = true ∧
      1085 ≤ (ofRatio false n 1).scale ∧ (ofRatio false n 1).scale ≤ 1086 := by
  have hscale : (n * 2 ^ 1074 / 1).log2 - 52 = 11 + 1074 := by
    rw [Nat.div_one, log2_mul_two_pow hlow hhigh]
  obtain ⟨r, hr, hle, hle'⟩ := exists_roundedQuotient 1074 hlow hhigh
  have hparts := parts_ofWord hle hle'
  have hword : (11 + 1074) * 2 ^ 52 + r =
      (ofWord (1085 * 2 ^ 52 + r)).scale * 2 ^ 52 + (ofWord (1085 * 2 ^ 52 + r)).significand := by
    have heq := (ofWord (1085 * 2 ^ 52 + r)).word_eq
    rw [hparts.1, word_ofWord hle'] at heq
    exact heq.trans (Nat.zero_add _)
  have hsame := ofRatio_of_parts (11 + 1074) r hparts.2.1 hscale hr hword
  rw [hparts.1] at hsame
  rw [hsame]
  exact hparts

variable (x : Binary64)

theorem le_log2_value (hscale : 0 < x.scale) : 54 + x.scale ≤ x.interval.value.log2 := by
  have hm := x.le_significand hscale
  have hvalue : 2 ^ (54 + x.scale) ≤ x.interval.value := by
    unfold interval
    rw [Nat.pow_add]
    exact Nat.mul_le_mul_right _ (by omega)
  have hne : x.interval.value ≠ 0 := Nat.ne_of_gt (Nat.lt_of_lt_of_le (Nat.two_pow_pos _) hvalue)
  exact (Nat.le_log2 hne).mpr hvalue

theorem three_le_exponent (hlow : 1085 ≤ x.scale) (hhigh : x.scale ≤ 1086) :
    3 ≤ (x.shortest .up).exponent := by
  have hm := x.le_significand (by omega)
  have hlog := x.le_log2_value (by omega)
  have hlog' := x.log2_value_le
  have htop : x.interval.top - 20 ≤ 3 ∧ 3 ≤ x.interval.top := by
    unfold Interval.top
    omega
  -- A thousand is below `2 ^ 10`, so a point of this grid is near enough to the value.
  obtain ⟨c, hc⟩ : ∃ c, c = 1076 := ⟨_, rfl⟩
  have hstep : Nat.pow 10 (3 : Int).toNat * Nat.pow 2 c ≤
      2 * 2 ^ x.scale * Nat.pow 10 (-3 : Int).toNat := by
    have hpower : 2 ^ (9 + c) ≤ 2 ^ x.scale := Nat.pow_le_pow_right (by decide) (by omega)
    rw [Nat.pow_add] at hpower
    change 1000 * 2 ^ c ≤ 2 * 2 ^ x.scale * 1
    omega
  exact (x.shortest_spec htop.1 htop.2 (x.exists_gridPoint (by omega) hc hstep)).2

theorem exists_shortest_thousand (hfinite : x.isFinite = true) (hlow : 1085 ≤ x.scale)
    (hhigh : x.scale ≤ 1086) :
    ∃ d : Nat, (x.shortest .up).value = (1000 * d : Nat) ∧ ofRatio x.negative (1000 * d) 1 = x := by
  have hm := x.le_significand (by omega)
  have hexponent := x.three_le_exponent hlow hhigh
  have hround := x.ofRatio_shortest .up hfinite (by omega)
  have hvalue := (x.shortest .up).value_eq
  obtain ⟨j, hj⟩ : ∃ j : Nat, (x.shortest .up).exponent = (j + 3 : Nat) :=
    ⟨((x.shortest .up).exponent - 3).toNat, by omega⟩
  have hnum : (x.shortest .up).num = 1000 * ((x.shortest .up).digits * 10 ^ j) := by
    unfold Decimal.num
    rw [hj, Int.toNat_natCast, Nat.pow_eq, Nat.pow_add]
    ring
  have hden : (x.shortest .up).den = 1 := by
    unfold Decimal.den
    rw [hj, show (-((j + 3 : Nat) : Int)).toNat = 0 by omega, Nat.pow_eq, Nat.pow_zero]
  rw [hnum, hden] at hround hvalue
  exact ⟨_, by rw [hvalue, Nat.cast_one, div_one], hround⟩

end Binary64

namespace Value

theorem denoted?_json_integer (n : Int) :
    (json (.number (.int n))).denoted? = some (.number n) := by
  rw [denoted?_eq, literal, Json.literal, Json.Number.text, Sql.Literal.datum?,
    numberValue?_intText]
  rfl

theorem denoted?_ofJson_word {n : Int} (hlow : -2 ^ 63 ≤ n) (hhigh : n < 2 ^ 63) :
    (ofJson (.number (.int n))).denoted? = some (.number n) := by
  have hword : Int64.minValue.toInt ≤ n ∧ n ≤ Int64.maxValue.toInt := by
    rw [Int64.toInt_minValue, Int64.toInt_maxValue]
    omega
  rw [denoted?_eq, ofJson, if_pos hword, literal, Int64.toInt_ofInt_of_le hlow hhigh,
    Sql.Literal.datum?, numberValue?_intText]
  rfl

theorem denoted?_float {x : Binary64} (hfinite : x.isFinite = true) (hzero : x.isZero = false) :
    (float x).denoted? = some (.number (signedRatio x.negative (x.shortest .up).value)) := by
  rw [denoted?_eq, literal, if_pos hfinite, Sql.Literal.datum?, x.numberValue?_text hzero]
  rfl

theorem denoted?_ofJson_beyond {n : Nat} (hlow : 2 ^ 63 ≤ n) (hhigh : n < 2 ^ 64) :
    ∃ d : Nat, (ofJson (.number (.int n))).denoted? = some (.number (1000 * d : Nat)) ∧
      Binary64.ofRatio false (1000 * d) 1 = Binary64.ofRatio false n 1 := by
  have hword : ¬ (Int64.minValue.toInt ≤ (n : Int) ∧ (n : Int) ≤ Int64.maxValue.toInt) := by
    rw [Int64.toInt_minValue, Int64.toInt_maxValue]
    omega
  have hsign : decide ((n : Int) < 0) = false := decide_eq_false (by omega)
  obtain ⟨hnegative, hfinite, hscale, hscale'⟩ := Binary64.scale_ofRatio_whole hlow hhigh
  rw [ofJson, if_neg hword, hsign, Int.natAbs_natCast]
  generalize Binary64.ofRatio false n 1 = x at hnegative hfinite hscale hscale' ⊢
  -- The shortest digits end in three zeros, since the steps are that wide.
  obtain ⟨d, hvalue, hround⟩ := x.exists_shortest_thousand hfinite hscale hscale'
  have hzero : x.isZero = false := by
    have := x.le_significand (by omega)
    rw [Bool.eq_false_iff, ne_eq, x.isZero_iff]
    omega
  rw [hnegative] at hround
  refine ⟨d, ?_, hround⟩
  rw [denoted?_float hfinite hzero, hnegative, hvalue]
  rfl

/-- A whole number as JSON knows it becomes the same value as an operand, as a member of a list and
by itself. Its literal denotes the number up to `2 ^ 63`, and from there on a multiple of a thousand
with the same nearest floating-point number, where the number kept as JSON is still denoted. -/
theorem denoted?_ofJson (n : Int) (hlow : -2 ^ 63 ≤ n) (hhigh : n < 2 ^ 64) :
    Operand.ofJson (.number (.int n)) = .value (ofJson (.number (.int n))) ∧
    (∀ (items : List Json) (place : Nat), items[place]? = some (.number (.int n)) →
      ∃ vs, Operand.ofJson (.array items) = .list vs ∧
        vs[place]? = some (ofJson (.number (.int n)))) ∧
    (json (.number (.int n))).denoted? = some (.number n) ∧
    (n < 2 ^ 63 → (ofJson (.number (.int n))).denoted? = some (.number n)) ∧
    (2 ^ 63 ≤ n → ∃ d : Nat,
      (ofJson (.number (.int n))).denoted? = some (.number (1000 * d : Nat)) ∧
      Binary64.ofRatio false (1000 * d) 1 = Binary64.ofRatio false n.toNat 1) := by
  refine ⟨rfl, ?_, denoted?_json_integer n, denoted?_ofJson_word hlow, ?_⟩
  · intro items place hitem
    refine ⟨items.map ofJson, rfl, ?_⟩
    rw [List.getElem?_map, hitem]
    rfl
  · intro hbeyond
    obtain ⟨m, rfl⟩ := Int.eq_ofNat_of_zero_le (show 0 ≤ n by omega)
    exact denoted?_ofJson_beyond (by omega) (by omega)

theorem denoted?_ofJson_last :
    (json (.number (.int 18446744073709551615))).denoted? =
        some (.number (18446744073709551615 : Int)) ∧
      ∃ d : Nat, (ofJson (.number (.int 18446744073709551615))).denoted? =
          some (.number (1000 * d : Nat)) ∧
        Binary64.ofRatio false (1000 * d) 1 = Binary64.ofRatio false 18446744073709551615 1 :=
  have h := denoted?_ofJson 18446744073709551615 (by decide) (by decide)
  ⟨h.2.2.1, h.2.2.2.2 (by decide)⟩

/-- The first whole number without a signed word. -/
theorem denoted?_ofJson_first :
    (json (.number (.int 9223372036854775808))).denoted? =
        some (.number (9223372036854775808 : Int)) ∧
      (ofJson (.number (.int 9223372036854775808))).denoted? =
        some (.number (9223372036854776000 : Int)) := by
  have hliteral : (ofJson (.number (.int 9223372036854775808))).literal =
      .number (intText 9223372036854776000) := by decide +kernel
  refine ⟨denoted?_json_integer _, ?_⟩
  rw [denoted?_eq, hliteral, Sql.Literal.datum?, numberValue?_intText]
  rfl

end Value

end RowStore
