import Reckoner.Proofs.Numbers.Rounding
import Reckoner.Proofs.Numbers.Whole

/-! Integers as floating-point numbers. All integers with no more digits than the precision are
such numbers, and sums, differences, products and remainders that are such integers are computed
exactly, whatever the signs of the zeros among them.
-/

namespace Reckoner
namespace Binary64

/-- A number is an integer if that is its value. Zero is either zero. -/
def IsInteger (number : Binary64) (v : ℤ) : Prop :=
  number.toRat? = some (v : ℚ)

/-- The integers are the multiples of one. -/
theorem isInteger_iff {number : Binary64} {v : ℤ}
    : number.IsInteger v
      ↔ ∃ negative units exact, number = .finite negative units exact
        ∧ signed negative units = v * unitsInOne := by
  have nonzero : (unitsInOne : ℚ) ≠ 0 := unitsInOne_pos.ne'
  cases number with
  | infinite | nan =>
      refine iff_of_false nofun ?_
      rintro ⟨_, _, _, ⟨⟩, -⟩
  | finite negative units exact =>
      have same : (finite negative units exact).IsInteger v
          ↔ signed negative units = v * unitsInOne := by
        rw [IsInteger, toRat?, Option.some.injEq, div_eq_iff nonzero, ← Int.cast_natCast,
          ← Int.cast_mul, Int.cast_inj]
      rw [same]
      constructor
      · exact fun value => ⟨negative, units, exact, rfl, value⟩
      · rintro ⟨_, _, _, ⟨⟩, value⟩
        exact value

-----------------------------------------------------------------------------------------
-- Exact results
-----------------------------------------------------------------------------------------

/-- A quotient that is a representable magnitude is rounded to it. -/
theorem nearest_mul (negative : Bool) {units denominator : ℕ} (exact : Representable units)
    (positive : 0 < denominator)
    : nearest negative (units * denominator) denominator = .finite negative units exact := by
  have quotient := rounds_nearest negative (units * denominator) positive
  have itself := rounds_nearest negative units one_pos
  rw [Nat.cast_mul, mul_div_cancel_right₀ _ (Nat.cast_ne_zero.mpr positive.ne')] at quotient
  rw [Nat.cast_one, div_one, nearest_of_representable negative exact] at itself
  exact quotient.unique itself

/-- Integers with no more digits than the precision are representable, and so is the next power of
two.
-/
theorem representable_natAbs {v : ℤ} (small : v.natAbs ≤ twoTo precision)
    : Representable (v.natAbs * unitsInOne) := by
  refine ⟨?_, twoTo_excessDigits_dvd small unitExponent⟩
  calc v.natAbs * unitsInOne
      ≤ twoTo precision * unitsInOne := Nat.mul_le_mul_right unitsInOne small
    _ = twoTo (precision + unitExponent) := by rw [unitsInOne, ← twoTo_add]
    _ < twoTo limitExponent := twoTo_lt_twoTo (by decide)

theorem natAbs_signed (negative : Bool) (units : ℕ)
    : (signed negative units).natAbs = units := by
  cases negative
  · exact Int.natAbs_natCast units
  · exact (Int.natAbs_neg _).trans (Int.natAbs_natCast units)

theorem signed_mul (negative : Bool) (a b : ℕ)
    : signed negative (a * b) = signed negative a * b := by
  cases negative <;> simp [signed]

theorem signed_xor (s t : Bool) (a b : ℕ)
    : signed (s ^^ t) (a * b) = signed s a * signed t b := by
  cases s <;> cases t <;> simp [signed]

/-- A sum has its own sign where it is not zero, so that its magnitude with its sign is itself. -/
theorem signed_natAbs (z : ℤ) (zero : Bool)
    : signed (if z = 0 then zero else z < 0) z.natAbs = z := by
  by_cases same : z = 0
  · rw [same]
    cases zero <;> rfl
  · rw [if_neg same, signed]
    split
    · next negative => rw [Int.ofNat_natAbs_of_nonpos (of_decide_eq_true negative).le, neg_neg]
    · next nonneg =>
        rw [Int.natAbs_of_nonneg (not_lt.mp fun negative => nonneg (decide_eq_true negative))]

/-- Rounding leaves an integer with no more digits than the precision as it is. -/
theorem isInteger_nearest {negative : Bool} {numerator denominator : ℕ} {v : ℤ}
    (small : v.natAbs ≤ twoTo precision) (positive : 0 < denominator)
    (same : signed negative numerator = v * unitsInOne * denominator)
    : (nearest negative numerator denominator).IsInteger v := by
  have magnitude : numerator = v.natAbs * unitsInOne * denominator := by
    rw [← natAbs_signed negative numerator, same, Int.natAbs_mul, Int.natAbs_mul,
      Int.natAbs_natCast, Int.natAbs_natCast]
  rw [magnitude, nearest_mul negative (representable_natAbs small) positive]
  refine isInteger_iff.mpr ⟨_, _, _, rfl, ?_⟩
  rw [magnitude, signed_mul] at same
  exact mul_right_cancel₀ (Int.natCast_ne_zero.mpr positive.ne') same

namespace IsInteger

variable {a b : Binary64} {v w : ℤ}

theorem add (left : a.IsInteger v) (right : b.IsInteger w)
    (small : (v + w).natAbs ≤ twoTo precision)
    : (a.add b).IsInteger (v + w) := by
  obtain ⟨s, units, exact, rfl, value⟩ := isInteger_iff.mp left
  obtain ⟨t, units', exact', rfl, value'⟩ := isInteger_iff.mp right
  rw [Binary64.add]
  apply isInteger_nearest small one_pos
  rw [signed_natAbs, value, value', ← add_mul, Nat.cast_one, mul_one]

theorem neg (number : a.IsInteger v)
    : a.neg.IsInteger (-v) := by
  obtain ⟨s, units, exact, rfl, value⟩ := isInteger_iff.mp number
  refine isInteger_iff.mpr ⟨_, _, exact, rfl, ?_⟩
  rw [neg_mul, ← value]
  cases s <;> simp [signed]

theorem sub (left : a.IsInteger v) (right : b.IsInteger w)
    (small : (v - w).natAbs ≤ twoTo precision)
    : (a.sub b).IsInteger (v - w) := by
  rw [sub_eq_add_neg] at small ⊢
  exact left.add right.neg small

theorem mul (left : a.IsInteger v) (right : b.IsInteger w)
    (small : (v * w).natAbs ≤ twoTo precision)
    : (a.mul b).IsInteger (v * w) := by
  obtain ⟨s, units, exact, rfl, value⟩ := isInteger_iff.mp left
  obtain ⟨t, units', exact', rfl, value'⟩ := isInteger_iff.mp right
  rw [Binary64.mul]
  apply isInteger_nearest small (twoTo_pos unitExponent)
  rw [signed_xor, value, value']
  exact mul_mul_mul_comm .. |>.trans (mul_assoc ..).symm

/-- An integer is zero if it is one of the zeros. -/
theorem isZero_iff (number : b.IsInteger w)
    : b.isZero ↔ w = 0 := by
  obtain ⟨t, units, exact, rfl, value⟩ := isInteger_iff.mp number
  have positive : (unitsInOne : ℤ) ≠ 0 := Int.natCast_ne_zero.mpr (twoTo_pos _).ne'
  rw [isZero, beq_iff_eq, ← natAbs_signed t units, value, Int.natAbs_eq_zero,
    mul_eq_zero, or_iff_left positive]

/-- The remainder of magnitudes with the sign of the dividend is the remainder of the division
that is truncated toward zero.
-/
theorem signed_mod (s t : Bool) (a b : ℕ)
    : signed s (a % b) = (signed s a).tmod (signed t b) := by
  have natural : ((a % b : ℕ) : ℤ) = (a : ℤ).tmod b := Int.ofNat_tmod a b
  cases s <;> cases t <;> simp only [signed, Int.tmod_neg, Int.neg_tmod, natural, if_true,
    Bool.false_eq_true, if_false]

theorem rem (left : a.IsInteger v) (right : b.IsInteger w) (nonzero : w ≠ 0)
    : (a.rem b).IsInteger (v.tmod w) := by
  obtain ⟨s, units, exact, rfl, value⟩ := isInteger_iff.mp left
  obtain ⟨t, units', exact', rfl, value'⟩ := isInteger_iff.mp right
  have positive : 0 < units' := by
    rw [Nat.pos_iff_ne_zero]
    intro zero
    exact nonzero (right.isZero_iff.mp (beq_iff_eq.mpr zero))
  have unit : (0 : ℤ) < unitsInOne := Int.natCast_pos.mpr (twoTo_pos _)
  rw [Binary64.rem, dif_pos positive]
  refine isInteger_iff.mpr ⟨_, _, _, rfl, ?_⟩
  rw [signed_mod s t, value, value', mul_comm v, mul_comm w, Int.mul_tmod_mul_of_pos _ _ unit,
    mul_comm]

end IsInteger
end Binary64
end Reckoner
