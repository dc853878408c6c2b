import Mathlib
import RowStore.Number.Shortest

/-!
# Rounding

A ratio in the interval of a finite number rounds to this number.
-/

namespace RowStore.Binary64

/-! ## The parts of a pattern -/

theorem word_lt (x : Binary64) : x.word < 2 ^ 64 := x.bits.toNat_lt

theorem ofWord_word (x : Binary64) : ofWord x.word = x := by
  obtain ⟨bits⟩ := x
  simp [ofWord, word]

theorem significand_lt (x : Binary64) : x.significand < 2 ^ 53 := by
  have hfraction : x.fraction < 2 ^ 52 := Nat.mod_lt _ (by decide)
  unfold significand
  simp only [Nat.pow_eq]
  split <;> omega

theorem le_significand (x : Binary64) (h : 0 < x.scale) : 2 ^ 52 ≤ x.significand := by
  unfold scale at h
  unfold significand
  rw [if_neg (by omega)]
  exact Nat.le_add_left _ _

theorem scale_le (x : Binary64) (h : x.isFinite = true) : x.scale ≤ 2045 := by
  have hfield : x.exponentField < 2 ^ 11 := Nat.mod_lt _ (by decide)
  simp only [isFinite, bne_iff_ne, ne_eq] at h
  unfold scale
  omega

theorem word_eq (x : Binary64) :
    x.word = signWord x.negative + (x.scale * 2 ^ 52 + x.significand) := by
  have hword := x.word_lt
  unfold signWord negative scale significand exponentField fraction
  simp only [Nat.pow_eq, decide_eq_true_eq]
  split <;> split <;> omega

/-! ## Quotients -/

theorem roundedQuotient_eq {a b r : Nat} (hlow : 2 * (r * b) ≤ 2 * a + b)
    (hhigh : 2 * a ≤ 2 * (r * b) + b)
    (hends : 2 * (r * b) = 2 * a + b ∨ 2 * a = 2 * (r * b) + b → r % 2 = 0) (hb : 0 < b) :
    roundedQuotient a b = r := by
  have hdivide : b * (a / b) + a % b = a := Nat.div_add_mod a b
  have hrest : a % b < b := Nat.mod_lt a hb
  unfold roundedQuotient
  generalize a / b = q at hdivide
  generalize a % b = t at hdivide hrest
  subst hdivide
  -- The result is one of the two whole numbers around the quotient.
  have hq : r = q ∨ r = q + 1 := by
    have hle : q ≤ r := by
      by_contra hlt
      have hstep : (r + 1) * b ≤ q * b := Nat.mul_le_mul_right b (by omega)
      rw [Nat.add_mul, Nat.one_mul, Nat.mul_comm q b] at hstep
      omega
    have hle' : r ≤ q + 1 := by
      by_contra hlt
      have hstep : (q + 2) * b ≤ r * b := Nat.mul_le_mul_right b (by omega)
      rw [Nat.add_mul, Nat.mul_comm q b] at hstep
      omega
    omega
  rcases hq with rfl | rfl
  · rw [Nat.mul_comm r b] at hlow hhigh hends
    have heven : 2 * t = b → r % 2 = 0 := fun h => hends (by omega)
    rw [if_neg]
    simp only [Bool.or_eq_true, Bool.and_eq_true, decide_eq_true_eq, beq_iff_eq]
    omega
  · rw [Nat.add_mul, Nat.one_mul, Nat.mul_comm q b] at hlow hhigh hends
    have hodd : 2 * t = b → q % 2 = 1 := fun h => by
      have := hends (by omega)
      omega
    rw [if_pos]
    simp only [Bool.or_eq_true, Bool.and_eq_true, decide_eq_true_eq, beq_iff_eq]
    omega

/-! ## Ratios -/

theorem ofRatio_of_parts {x : Binary64} {num den : Nat} (scale r : Nat)
    (hfinite : x.isFinite = true)
    (hscale : (num * 2 ^ 1074 / den).log2 - 52 = scale)
    (hquotient : roundedQuotient (num * 2 ^ 1074) (den * 2 ^ scale) = r)
    (hword : scale * 2 ^ 52 + r = x.scale * 2 ^ 52 + x.significand) :
    ofRatio x.negative num den = x := by
  have hsignificand := x.significand_lt
  have hbound := x.scale_le hfinite
  unfold ofRatio infinityWord
  simp only [Nat.pow_eq, hscale, hquotient, hword]
  rw [if_neg (by omega), ← x.word_eq, x.ofWord_word]

/-- How far the interval of a number reaches below it. -/
def below (x : Binary64) : Nat := if x.significand = 2 ^ 52 ∧ 0 < x.scale then 1 else 2

theorem below_le (x : Binary64) : x.below ≤ 2 := by
  unfold below
  split <;> omega

/-- A ratio in the interval, in units of `2 ^ -1074`. -/
theorem of_contains {x : Binary64} {num den : Nat}
    (h : x.interval.contains den (Nat.pow 2 1076) num = true) :
    4 * (x.significand * (2 ^ x.scale * den)) ≤
        4 * (num * 2 ^ 1074) + x.below * (2 ^ x.scale * den) ∧
      4 * (num * 2 ^ 1074) ≤
        4 * (x.significand * (2 ^ x.scale * den)) + 2 * (2 ^ x.scale * den) ∧
      (4 * (x.significand * (2 ^ x.scale * den)) =
          4 * (num * 2 ^ 1074) + x.below * (2 ^ x.scale * den) ∨
        4 * (num * 2 ^ 1074) =
          4 * (x.significand * (2 ^ x.scale * den)) + 2 * (2 ^ x.scale * den) →
        x.significand % 2 = 0) := by
  have hbelow : (if x.significand == 2 ^ 52 && 0 < x.scale then 1 else 2) = x.below := by
    simp [below]
  have hpower : num * 2 ^ 1076 = 4 * (num * 2 ^ 1074) := by
    rw [show 1076 = 1074 + 2 from rfl, Nat.pow_add]
    omega
  unfold Interval.contains interval at h
  simp only [Nat.pow_eq, hbelow, hpower, Nat.mul_assoc, Nat.sub_mul, Nat.add_mul] at h
  generalize 2 ^ x.scale * den = u at h ⊢
  generalize x.significand * u = mu at h ⊢
  generalize x.below * u = bu at h ⊢
  generalize num * 2 ^ 1074 = e at h ⊢
  simp only [Bool.or_eq_true, Bool.and_eq_true, decide_eq_true_eq, beq_iff_eq] at h
  omega

theorem log2_eq {n k : Nat} (hlow : 2 ^ k ≤ n) (hhigh : n < 2 ^ (k + 1)) : n.log2 = k :=
  (Nat.log2_eq_iff (Nat.ne_of_gt (Nat.lt_of_lt_of_le (Nat.two_pow_pos k) hlow))).mpr
    ⟨hlow, hhigh⟩

theorem log2_le {n k : Nat} (h : n < 2 ^ (k + 1)) : n.log2 ≤ k := by
  by_cases hn : n = 0
  · subst hn
    exact Nat.zero_le k
  · exact Nat.lt_succ_iff.mp ((Nat.log2_lt hn).mpr h)

theorem ofRatio_eq {x : Binary64} {num den : Nat} (hfinite : x.isFinite = true) (hden : 0 < den)
    (h : x.interval.contains den (Nat.pow 2 1076) num = true) :
    ofRatio x.negative num den = x := by
  obtain ⟨hlow, hhigh, hends⟩ := of_contains h
  have hlt := x.significand_lt
  have hbelow := x.below_le
  have hunit : 0 < 2 ^ x.scale * den := Nat.mul_pos (Nat.two_pow_pos _) hden
  -- Nothing in the interval needs a scale above that of the number.
  have htop : num * 2 ^ 1074 / den < 2 ^ (52 + x.scale + 1) := by
    rw [Nat.div_lt_iff_lt_mul hden, show 52 + x.scale + 1 = 53 + x.scale by omega, Nat.pow_add,
      Nat.mul_assoc]
    have hm : x.significand * (2 ^ x.scale * den) ≤ (2 ^ 53 - 1) * (2 ^ x.scale * den) :=
      Nat.mul_le_mul_right _ (by omega)
    rw [Nat.sub_mul] at hm
    omega
  by_cases hscale : x.scale = 0 ∨ 2 ^ (52 + x.scale) ≤ num * 2 ^ 1074 / den
  · refine ofRatio_of_parts x.scale x.significand hfinite ?_ ?_ rfl
    · rcases hscale with hzero | hreach
      · rw [hzero] at htop ⊢
        have := log2_le htop
        omega
      · rw [log2_eq hreach htop, Nat.add_sub_cancel_left]
    · rw [Nat.mul_comm den]
      have hwhole : x.below = 1 ∨ x.below = 2 := by
        unfold below
        split <;> omega
      rcases hwhole with hone | htwo
      · rw [hone, Nat.one_mul] at hlow hends
        exact roundedQuotient_eq (by omega) (by omega) (fun h => hends (by omega)) hunit
      · rw [htwo] at hlow hends
        exact roundedQuotient_eq (by omega) (by omega) (fun h => hends (by omega)) hunit
  · -- Just below a power of two the ratio has the scale of the number before.
    rw [not_or, Nat.not_le, Nat.div_lt_iff_lt_mul hden, Nat.pow_add, Nat.mul_assoc] at hscale
    obtain ⟨hpositive, hshort⟩ := hscale
    have hm := x.le_significand (by omega)
    have hpower : x.significand = 2 ^ 52 := by
      by_contra hne
      have hmore : (2 ^ 52 + 1) * (2 ^ x.scale * den) ≤ x.significand * (2 ^ x.scale * den) :=
        Nat.mul_le_mul_right _ (by omega)
      have htwo : x.below * (2 ^ x.scale * den) ≤ 2 * (2 ^ x.scale * den) :=
        Nat.mul_le_mul_right _ hbelow
      rw [Nat.add_mul] at hmore
      omega
    have hone : x.below = 1 := if_pos ⟨hpower, by omega⟩
    obtain ⟨k, hk⟩ : ∃ k, x.scale = k + 1 := ⟨x.scale - 1, by omega⟩
    have hhalf : 2 ^ x.scale * den = 2 * (den * 2 ^ k) := by
      rw [hk, Nat.pow_succ]
      ring
    rw [hpower, hone, Nat.one_mul, hhalf] at hlow
    rw [hhalf] at hshort
    refine ofRatio_of_parts k (2 ^ 53) hfinite ?_ ?_ (by rw [hpower, hk]; omega)
    · have hreach : 2 ^ (52 + k) ≤ num * 2 ^ 1074 / den := by
        rw [Nat.le_div_iff_mul_le hden, Nat.pow_add, Nat.mul_assoc, Nat.mul_comm _ den]
        omega
      have hunder : num * 2 ^ 1074 / den < 2 ^ (52 + k + 1) := by
        rw [Nat.div_lt_iff_lt_mul hden, show 52 + k + 1 = 53 + k by omega, Nat.pow_add,
          Nat.mul_assoc, Nat.mul_comm _ den]
        omega
      rw [log2_eq hreach hunder, Nat.add_sub_cancel_left]
    · exact roundedQuotient_eq (by omega) (by omega) (fun _ => rfl)
        (Nat.mul_pos hden (Nat.two_pow_pos k))

end RowStore.Binary64
