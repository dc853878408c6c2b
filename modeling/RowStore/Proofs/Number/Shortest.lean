import RowStore.Proofs.Number.Rounding

/-!
# The shortest decimal reads back

The search for the shortest decimal of a number finds one in the interval of the number, so the
decimal rounds to the number.
-/

namespace RowStore

/-- A decimal is the ratio of `num` and `den`. -/
def Decimal.num (d : Decimal) : Nat := d.digits * Nat.pow 10 d.exponent.toNat

def Decimal.den (d : Decimal) : Nat := Nat.pow 10 (-d.exponent).toNat

namespace Binary64

/-! ## Grids -/

namespace Interval

variable {i : Interval} {tie : Tie} {k : Int}

theorem contains_num (i : Interval) (times c n d : Nat) :
    i.contains times (c * n) d = i.contains times n (d * c) := by
  unfold contains
  rw [Nat.mul_assoc d]

theorem contains_nearestPoint {times step d : Nat} (h : i.nearestPoint? tie times step = some d) :
    i.contains times step d = true := by
  unfold nearestPoint? at h
  dsimp only at h
  generalize i.value * times / step = q at h
  split at h
  case h_1 hhere habove =>
    rw [ite_eq_iff] at h
    rcases h with ⟨-, h⟩ | ⟨-, h⟩
    · obtain rfl := Option.some.inj h
      exact habove
    · obtain rfl := Option.some.inj h
      exact hhere
  case h_2 hhere _ =>
    obtain rfl := Option.some.inj h
    exact hhere
  case h_3 _ habove =>
    obtain rfl := Option.some.inj h
    exact habove
  case h_4 => cases h

theorem exists_nearestPoint {times step : Nat} (htimes : 0 < times) (hpositive : 0 < step)
    (hlow : i.low < i.value) (hstep : step ≤ (i.high - i.value) * times) :
    ∃ d, i.nearestPoint? tie times step = some d := by
  have hlow' : i.low * times < i.value * times := Nat.mul_lt_mul_of_pos_right hlow htimes
  rw [Nat.sub_mul] at hstep
  have hdivide := Nat.div_add_mod (i.value * times) step
  have hrest := Nat.mod_lt (i.value * times) hpositive
  rw [Nat.mul_comm] at hdivide
  -- The last point up to the value, or the one after it, which is at most a step above the value.
  have hpoint : i.contains times step (i.value * times / step) = true ∨
      i.contains times step (i.value * times / step + 1) = true := by
    unfold contains
    simp only [Nat.add_mul, Nat.one_mul, Bool.or_eq_true, Bool.and_eq_true, decide_eq_true_eq]
    omega
  unfold nearestPoint?
  dsimp only
  split
  · exact ⟨_, (apply_ite some _ _ _).symm⟩
  · exact ⟨_, rfl⟩
  · exact ⟨_, rfl⟩
  · simp_all

theorem contains_gridPoint {d : Nat} (h : i.gridPoint? tie k = some d) :
    i.contains (Nat.pow 10 (-k).toNat) (Nat.pow 2 1076) (d * Nat.pow 10 k.toNat) = true := by
  rw [← contains_num]
  exact contains_nearestPoint h

end Interval

/-- The search ends on a grid with a point, no finer than any such grid in its reach. -/
theorem coarsest_spec {point? : Int → Option Nat} {steps : Nat} {j k : Int} (hj : k - steps ≤ j)
    (hjk : j ≤ k) (h : ∃ d, point? j = some d) :
    point? (coarsest point? steps k).exponent = some (coarsest point? steps k).digits ∧
      j ≤ (coarsest point? steps k).exponent := by
  -- On the grids that are left. Grid `j` stays among them as long as those before have no point.
  induction steps generalizing k with
  | zero =>
    obtain rfl : j = k := by omega
    obtain ⟨d, hd⟩ := h
    simp [coarsest, hd]
  | succ steps ih =>
    rw [coarsest]
    cases hpoint : point? k with
    | some d => exact ⟨hpoint, hjk⟩
    | none =>
      have hne : j ≠ k := by
        rintro rfl
        obtain ⟨d, hd⟩ := h
        cases hpoint.symm.trans hd
      exact ih (by omega) (by omega)

/-! ## Powers of two and of ten -/

theorem power_le {k : Int} {s c : Nat} (hs : s ≤ 2045) (hc : c = 1076)
    (h : 100000 * (k + 18) ≤ 30103 * (s - 1021)) :
    Nat.pow 10 k.toNat * Nat.pow 2 c ≤ 2 * 2 ^ s * Nat.pow 10 (-k).toNat := by
  simp only [Nat.pow_eq]
  -- A power of ten lies between the powers of two with `196 / 59` and `93 / 28` of its exponent.
  rcases Int.le_total 0 k with hk | hk
  · obtain ⟨n, rfl⟩ := Int.eq_ofNat_of_zero_le hk
    obtain ⟨j, rfl⟩ : ∃ j, s = 1075 + j := ⟨s - 1075, by omega⟩
    have hpower : 10 ^ n ≤ 2 ^ j := by
      rw [← Nat.pow_le_pow_iff_left (show 59 ≠ 0 by decide)]
      calc (10 ^ n) ^ 59 = (10 ^ 59) ^ n := Nat.pow_right_comm 10 n 59
        _ ≤ (2 ^ 196) ^ n := Nat.pow_le_pow_left (by decide) n
        _ = 2 ^ (196 * n) := (Nat.pow_mul 2 196 n).symm
        _ ≤ 2 ^ (j * 59) := Nat.pow_le_pow_right (by decide) (by omega)
        _ = (2 ^ j) ^ 59 := Nat.pow_mul 2 j 59
    have hneg : (-(n : Int)).toNat = 0 := by omega
    rw [Int.toNat_natCast, hneg, Nat.pow_zero, Nat.mul_one, ← Nat.pow_succ',
      show (1075 + j).succ = j + c by omega, Nat.pow_add]
    exact Nat.mul_le_mul_right _ hpower
  · obtain ⟨n, rfl⟩ := Int.exists_eq_neg_ofNat hk
    have hneg : (-(n : Int)).toNat = 0 := by omega
    rw [hneg, Int.neg_neg, Int.toNat_natCast, Nat.pow_zero, Nat.one_mul, ← Nat.pow_succ']
    rcases Nat.le_total c (s + 1) with hc' | hc'
    · calc 2 ^ c ≤ 2 ^ (s + 1) := Nat.pow_le_pow_right (by decide) hc'
        _ ≤ 2 ^ (s + 1) * 10 ^ n := Nat.le_mul_of_pos_right _ (Nat.pow_pos (by decide))
    · obtain ⟨j, rfl⟩ := Nat.exists_eq_add_of_le hc'
      have hpower : 2 ^ j ≤ 10 ^ n := by
        rw [← Nat.pow_le_pow_iff_left (show 28 ≠ 0 by decide)]
        calc (2 ^ j) ^ 28 = 2 ^ (j * 28) := (Nat.pow_mul 2 j 28).symm
          _ ≤ 2 ^ (93 * n) := Nat.pow_le_pow_right (by decide) (by omega)
          _ = (2 ^ 93) ^ n := Nat.pow_mul 2 93 n
          _ ≤ (10 ^ 28) ^ n := Nat.pow_le_pow_left (by decide) n
          _ = (10 ^ n) ^ 28 := Nat.pow_right_comm 10 28 n
      rw [Nat.pow_add]
      exact Nat.mul_le_mul_left _ hpower

/-! ## The interval of a number -/

section

variable (x : Binary64)

theorem interval_low (hpositive : 0 < x.significand) : x.interval.low < x.interval.value := by
  have hunit : 0 < Nat.pow 2 x.scale := Nat.two_pow_pos _
  unfold interval
  refine Nat.mul_lt_mul_of_pos_right ?_ hunit
  split <;> omega

theorem interval_high : x.interval.high - x.interval.value = 2 * 2 ^ x.scale := by
  unfold interval
  simp only [Nat.pow_eq, Nat.add_mul, Nat.add_sub_cancel_left]

theorem exists_gridPoint {tie : Tie} {k : Int} {c : Nat} (hpositive : 0 < x.significand)
    (hc : c = 1076)
    (h : Nat.pow 10 k.toNat * Nat.pow 2 c ≤ 2 * 2 ^ x.scale * Nat.pow 10 (-k).toNat) :
    ∃ d, x.interval.gridPoint? tie k = some d := by
  have hstep : 0 < Nat.pow 10 k.toNat * Nat.pow 2 c :=
    Nat.mul_pos (Nat.pow_pos (by decide)) (Nat.two_pow_pos c)
  unfold Interval.gridPoint?
  rw [← hc]
  refine Interval.exists_nearestPoint (Nat.pow_pos (by decide)) hstep (x.interval_low hpositive) ?_
  rw [interval_high]
  exact h

theorem log2_value_le : x.interval.value.log2 ≤ 54 + x.scale := by
  have hlt := x.significand_lt
  have hunit : 0 < 2 ^ x.scale := Nat.two_pow_pos _
  refine log2_le ?_
  unfold interval
  rw [show 54 + x.scale + 1 = 55 + x.scale by omega, Nat.pow_add]
  exact Nat.mul_lt_mul_of_pos_right (by omega) hunit

theorem exists_gridPoint_top (tie : Tie) (hfinite : x.isFinite = true)
    (hpositive : 0 < x.significand) :
    ∃ d, x.interval.gridPoint? tie (x.interval.top - 20) = some d := by
  have hlog := x.log2_value_le
  have hsize : 100000 * (x.interval.top - 20 + 18) ≤ 30103 * ((x.scale : Int) - 1021) := by
    unfold Interval.top
    omega
  obtain ⟨c, hc⟩ : ∃ c, c = 1076 := ⟨_, rfl⟩
  exact x.exists_gridPoint hpositive hc (power_le (x.scale_le hfinite) hc hsize)

theorem shortest_spec {tie : Tie} {j : Int} (hj : x.interval.top - 20 ≤ j)
    (hjk : j ≤ x.interval.top) (h : ∃ d, x.interval.gridPoint? tie j = some d) :
    x.interval.gridPoint? tie (x.shortest tie).exponent = some (x.shortest tie).digits ∧
      j ≤ (x.shortest tie).exponent :=
  coarsest_spec hj hjk h

theorem contains_shortest (tie : Tie) (hfinite : x.isFinite = true)
    (hpositive : 0 < x.significand) :
    x.interval.contains (x.shortest tie).den (Nat.pow 2 1076) (x.shortest tie).num = true := by
  obtain ⟨hpoint, -⟩ := x.shortest_spec (le_refl (x.interval.top - 20)) (by omega)
    (x.exists_gridPoint_top tie hfinite hpositive)
  exact Interval.contains_gridPoint hpoint

theorem ofRatio_shortest (tie : Tie) (hfinite : x.isFinite = true)
    (hpositive : 0 < x.significand) :
    ofRatio x.negative (x.shortest tie).num (x.shortest tie).den = x :=
  ofRatio_eq hfinite (Nat.pow_pos (by decide)) (x.contains_shortest tie hfinite hpositive)

end

end Binary64

end RowStore
