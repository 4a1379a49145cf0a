import Reckoner.Proofs.Numbers.Grid

/-! The one rule of rounding rounds: what it makes of a magnitude with a sign is the number
nearest to it, infinite from the overflow bound on, and zero up to the underflow bound.
-/

namespace Reckoner
namespace Binary64

-----------------------------------------------------------------------------------------
-- Signs
-----------------------------------------------------------------------------------------

@[simp]
theorem cast_signed (negative : Bool) (units : ℕ)
    : (signed negative units : ℚ) = withSign negative units := by
  cases negative <;> simp [signed, withSign]

theorem withSign_div (negative : Bool) (x y : ℚ)
    : withSign negative (x / y) = withSign negative x / y := by
  cases negative
  · rfl
  · exact (neg_div y x).symm

/-- Two magnitudes of one sign are as far apart as without it. -/
theorem abs_withSign_sub (negative : Bool) (x y : ℚ)
    : |withSign negative x - withSign negative y| = |x - y| := by
  cases negative
  · rfl
  · rw [withSign, withSign, if_pos rfl, if_pos rfl, neg_sub_neg, abs_sub_comm]

/-- Two magnitudes of opposite signs are as far apart as both together are from zero. -/
theorem abs_withSign_not_sub (negative : Bool) {x y : ℚ} (nonneg : 0 ≤ x) (nonneg' : 0 ≤ y)
    : |withSign (!negative) x - withSign negative y| = x + y := by
  cases negative
  · rw [withSign, withSign, Bool.not_false, if_pos rfl, if_neg Bool.false_ne_true,
      abs_sub_comm, sub_neg_eq_add, add_comm, abs_of_nonneg (add_nonneg nonneg nonneg')]
  · rw [withSign, withSign, Bool.not_true, if_pos rfl, if_neg Bool.false_ne_true,
      sub_neg_eq_add, abs_of_nonneg (add_nonneg nonneg nonneg')]

theorem abs_withSign (negative : Bool) {x : ℚ} (nonneg : 0 ≤ x)
    : |withSign negative x| = x := by
  cases negative
  · exact abs_of_nonneg nonneg
  · exact (abs_neg x).trans (abs_of_nonneg nonneg)

theorem withSign_withSign (negative : Bool) (x : ℚ)
    : withSign negative (withSign negative x) = x := by
  cases negative
  · rfl
  · exact neg_neg x

-----------------------------------------------------------------------------------------
-- The nearest number
-----------------------------------------------------------------------------------------

theorem unitsInOne_pos
    : (0 : ℚ) < unitsInOne :=
  Nat.cast_pos.mpr (twoTo_pos unitExponent)

/-- It is enough that the magnitude of a number is nearest among the magnitudes: numbers of the
other sign are farther away than zero is.
-/
theorem isNearestTo_of_magnitude {negative : Bool} {units : ℕ} (exact : Representable units)
    {x : ℚ} (nonneg : 0 ≤ x)
    (beats : ∀ other, Representable other → other ≠ units →
      |units - x| < |other - x|
        ∨ |units - x| = |other - x| ∧ Even (significand units) ∧ ¬ Even (significand other))
    : (finite negative units exact).IsNearestTo (withSign negative (x / unitsInOne)) := by
  refine ⟨_, rfl, fun other w value distinct => ?_⟩
  cases other with
  | infinite | nan => cases value
  | finite negative' units' exact' =>
      obtain rfl := Option.some.inj value
      simp only [cast_signed, withSign_div, ← sub_div, abs_div, abs_of_pos unitsInOne_pos,
        div_lt_div_iff_of_pos_right unitsInOne_pos, div_left_inj' unitsInOne_pos.ne',
        abs_withSign_sub] at distinct ⊢
      by_cases shared : withSign negative' units' = withSign negative units'
      · rw [shared] at distinct ⊢
        rw [abs_withSign_sub]
        exact beats units' exact' fun equal => distinct (by rw [equal])
      · left
        obtain rfl : negative' = !negative := by
          refine (Bool.eq_not_iff ..).mpr fun same => shared ?_
          rw [same]
        have positive : (0 : ℚ) < units' := by
          refine (Nat.cast_nonneg _).lt_of_ne fun zero => shared ?_
          cases negative <;> simp [withSign, ← zero]
        have near : |units - x| ≤ x := by
          rcases Nat.eq_zero_or_pos units with rfl | some
          · rw [Nat.cast_zero, zero_sub, abs_neg, abs_of_nonneg nonneg]
          · have zero := beats 0 representable_zero some.ne
            rw [Nat.cast_zero, zero_sub, abs_neg, abs_of_nonneg nonneg] at zero
            exact zero.elim le_of_lt fun tie => tie.1.le
        rw [abs_withSign_not_sub _ positive.le nonneg]
        exact near.trans_lt (lt_add_of_pos_left x positive)

-----------------------------------------------------------------------------------------
-- The bounds in units
-----------------------------------------------------------------------------------------

section Bounds

variable (negative : Bool) {x : ℚ} {steps exponent : ℕ}

theorem overflowBound_le_iff (nonneg : 0 ≤ x)
    : overflowBound ≤ |withSign negative (x / unitsInOne)| ↔ (2 ^ 54 - 1) * 2 ^ 2044 ≤ x := by
  have bound : overflowBound * unitsInOne = (2 ^ 54 - 1) * 2 ^ 2044 := by
    rw [overflowBound, unitsInOne, cast_twoTo, sub_mul, sub_mul, one_mul, unitExponent,
      ← pow_add, ← pow_add, ← pow_add]
  rw [abs_withSign negative (div_nonneg nonneg unitsInOne_pos.le), le_div_iff₀ unitsInOne_pos,
    bound]

theorem le_underflowBound_iff (nonneg : 0 ≤ x)
    : |withSign negative (x / unitsInOne)| ≤ underflowBound ↔ x ≤ 1 / 2 := by
  have bound : underflowBound * unitsInOne = 1 / 2 := by
    rw [underflowBound, unitsInOne, cast_twoTo, unitExponent, pow_succ, one_div, mul_inv,
      mul_right_comm, inv_mul_cancel₀ (by positivity), one_mul, one_div]
  rw [abs_withSign negative (div_nonneg nonneg unitsInOne_pos.le), div_le_iff₀ unitsInOne_pos,
    bound]

theorem withSign_written (nonneg : 0 ≤ x)
    : 0 ≤ withSign negative (withSign negative (x / unitsInOne)) := by
  rw [withSign_withSign]
  exact div_nonneg nonneg unitsInOne_pos.le

/-- A count of steps below the limit is what the counted magnitude is rounded to. -/
theorem rounds_finite (counted : IsCounted x steps exponent) (nonneg : 0 ≤ x)
    (exact : Representable (steps * twoTo exponent))
    : Rounds negative (withSign negative (x / unitsInOne)) (.finite negative _ exact) := by
  refine ⟨withSign_written negative nonneg, rfl, ?_, fun _ => ?_, ?_⟩
  · rw [overflowBound_le_iff negative nonneg, ← counted.magnitudeLimit_le_iff]
    exact iff_of_false nofun (not_le.mpr exact.1)
  · exact isNearestTo_of_magnitude exact nonneg fun other representable distinct =>
      counted.beats representable distinct
  · rw [le_underflowBound_iff negative nonneg, ← counted.eq_zero_iff, isZero, beq_iff_eq]

/-- A magnitude that is counted with the limit or more steps is rounded to an infinity. -/
theorem rounds_infinite (counted : IsCounted x steps exponent) (nonneg : 0 ≤ x)
    (large : magnitudeLimit ≤ steps * twoTo exponent)
    : Rounds negative (withSign negative (x / unitsInOne)) (.infinite negative) := by
  have beyond : overflowBound ≤ |withSign negative (x / unitsInOne)| := by
    rwa [overflowBound_le_iff negative nonneg, ← counted.magnitudeLimit_le_iff]
  refine ⟨withSign_written negative nonneg, rfl, iff_of_true rfl beyond,
    fun below => absurd beyond (not_le.mpr below), ?_⟩
  rw [le_underflowBound_iff negative nonneg, ← counted.eq_zero_iff]
  exact iff_of_false nofun ((twoTo_pos limitExponent).trans_le large).ne'

end Bounds

/-- The rule of rounding rounds a quotient of natural numbers of units. -/
theorem rounds_nearest (negative : Bool) (numerator : ℕ) {denominator : ℕ}
    (positive : 0 < denominator)
    : Rounds negative (withSign negative ((numerator : ℚ) / denominator / unitsInOne))
        (nearest negative numerator denominator) := by
  have counted := isCounted_spacings numerator positive
  have nonneg : (0 : ℚ) ≤ (numerator : ℚ) / denominator :=
    div_nonneg (Nat.cast_nonneg _) (Nat.cast_nonneg _)
  rw [nearest]
  split
  · exact rounds_finite negative counted nonneg _
  · next large => exact rounds_infinite negative counted nonneg (not_lt.mp large)

end Binary64
end Reckoner
