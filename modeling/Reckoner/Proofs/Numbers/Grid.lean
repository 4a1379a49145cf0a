import Mathlib.Algebra.Order.Field.Basic
import Mathlib.Tactic.FieldSimp
import Mathlib.Tactic.Positivity
import Mathlib.Tactic.Ring
import Reckoner.Proofs.Numbers.Nearness

/-! Rounding to nearest, as the arithmetic does it: the exact magnitude is counted in steps of the
power of two that the precision leaves, and the count is rounded to an integer, ties to even. The
result is the nearest of all representable magnitudes, since those off the grid of these steps are
farther away than the power of two at its beginning, which is on it.
-/

namespace Reckoner

-----------------------------------------------------------------------------------------
-- Rounding to integers
-----------------------------------------------------------------------------------------

/-- A natural number is nearest to a rational one: less than a half from it, or even and just a
half from it.
-/
def IsRoundedTo (k : ℕ) (x : ℚ) : Prop :=
  |k - x| < 1 / 2 ∨ |k - x| = 1 / 2 ∧ Even k

section Parts

variable (floor : ℕ) {part : ℚ}

theorem isRoundedTo_down (nonneg : 0 ≤ part) (small : part < 1 / 2)
    : IsRoundedTo floor (floor + part) := by
  left
  rwa [sub_add_cancel_left, abs_neg, abs_of_nonneg nonneg]

theorem isRoundedTo_up (large : 1 / 2 < part) (below : part < 1)
    : IsRoundedTo (floor + 1) (floor + part) := by
  left
  rw [Nat.cast_add, Nat.cast_one, add_sub_add_left_eq_sub, abs_of_pos (sub_pos.mpr below)]
  linarith

/-- Halfway between two natural numbers lies the even one of them. -/
theorem isRoundedTo_tie
    : IsRoundedTo (floor + floor % 2) (floor + 1 / 2) := by
  right
  rcases Nat.mod_two_eq_zero_or_one floor with even | odd
  · refine ⟨?_, by rw [even]; exact Nat.even_iff.mpr even⟩
    rw [even, Nat.add_zero, sub_add_cancel_left, abs_neg, abs_of_pos one_half_pos]
  · refine ⟨?_, by rw [odd]; exact (Nat.odd_iff.mpr odd).add_one⟩
    rw [odd, Nat.cast_add, Nat.cast_one, add_sub_add_left_eq_sub, sub_self_div_two,
      abs_of_pos one_half_pos]

end Parts

/-- A quotient is rounded to the nearest natural number: it is its floor and a part of one, and
the rounding compares this part with a half.
-/
theorem isRoundedTo_roundHalfEven (numerator : ℕ) {denominator : ℕ} (positive : 0 < denominator)
    : IsRoundedTo (roundHalfEven numerator denominator) (numerator / denominator) := by
  have positive' : (0 : ℚ) < denominator := Nat.cast_pos.mpr positive
  have split : (numerator : ℚ) / denominator
      = (numerator / denominator : ℕ) + (numerator % denominator : ℕ) / denominator := by
    rw [← mul_div_cancel_left₀ ((numerator / denominator : ℕ) : ℚ) positive'.ne', ← add_div,
      ← Nat.cast_mul, ← Nat.cast_add, Nat.div_add_mod]
  have nonneg : (0 : ℚ) ≤ (numerator % denominator : ℕ) / denominator :=
    div_nonneg (Nat.cast_nonneg _) positive'.le
  have below : ((numerator % denominator : ℕ) : ℚ) / denominator < 1 :=
    (div_lt_one positive').mpr (Nat.cast_lt.mpr (Nat.mod_lt _ positive))
  rw [split, roundHalfEven]
  rcases lt_trichotomy (2 * (numerator % denominator)) denominator with down | tie | up
  · have small : ((numerator % denominator : ℕ) : ℚ) / denominator < 1 / 2 := by
      rw [div_lt_div_iff₀ positive' two_pos, one_mul, mul_comm]
      exact_mod_cast down
    rw [if_pos down]
    exact isRoundedTo_down _ nonneg small
  · have half : ((numerator % denominator : ℕ) : ℚ) / denominator = 1 / 2 := by
      rw [div_eq_div_iff positive'.ne' two_ne_zero, one_mul, mul_comm]
      exact_mod_cast tie
    rw [if_neg tie.not_lt, if_neg tie.not_gt, half]
    exact isRoundedTo_tie _
  · have large : (1 : ℚ) / 2 < (numerator % denominator : ℕ) / denominator := by
      rw [div_lt_div_iff₀ two_pos positive', one_mul, mul_comm]
      exact_mod_cast up
    rw [if_neg up.not_gt, if_pos up]
    exact isRoundedTo_up _ large below

namespace IsRoundedTo

variable {k : ℕ} {x : ℚ}

theorem abs_sub_le_half (rounded : IsRoundedTo k x)
    : |k - x| ≤ 1 / 2 :=
  rounded.elim le_of_lt fun tie => tie.1.le

/-- Every other natural number is farther away, or as far away and odd. -/
theorem beats (rounded : IsRoundedTo k x) {j : ℕ} (other : j ≠ k)
    : |k - x| < |j - x| ∨ |k - x| = |j - x| ∧ Even k ∧ ¬ Even j := by
  have near := rounded.abs_sub_le_half
  have apart : 1 ≤ |(j : ℤ) - k| :=
    Int.one_le_abs (sub_ne_zero.mpr (Int.natCast_inj.not.mpr other))
  have triangle : ((|(j : ℤ) - k| : ℤ) : ℚ) ≤ |j - x| + |k - x| := by
    push_cast
    rw [abs_sub_comm (k : ℚ) x]
    exact abs_sub_le _ _ _
  have apart' : (1 : ℚ) ≤ (|(j : ℤ) - k| : ℤ) := by exact_mod_cast apart
  rcases lt_or_ge |k - x| |j - x| with nearer | tie
  · exact .inl nearer
  have middle : |k - x| = 1 / 2 := by linarith
  have neighbours : |(j : ℤ) - k| ≤ 1 := by
    rw [← @Int.cast_le ℚ, Int.cast_one]
    linarith
  obtain even : Even k := rounded.elim (fun near => absurd middle near.ne) And.right
  refine .inr ⟨by linarith, even, fun even' => ?_⟩
  obtain ⟨low, high⟩ := abs_le.mp neighbours
  obtain ⟨m, rfl⟩ := even
  obtain ⟨n, rfl⟩ := even'
  omega

/-- No natural number is nearer. -/
theorem abs_sub_le_abs_sub (rounded : IsRoundedTo k x) (j : ℕ)
    : |k - x| ≤ |j - x| := by
  by_cases same : j = k
  · rw [same]
  · exact (rounded.beats same).elim le_of_lt fun tie => tie.1.le

/-- Rounding goes up to an even number from the point halfway to it on. -/
theorem le_iff_of_even (rounded : IsRoundedTo k x) {m : ℕ} (even : Even m)
    : m ≤ k ↔ m - 1 / 2 ≤ x := by
  have near := abs_le.mp rounded.abs_sub_le_half
  constructor
  · intro up
    have up' : (m : ℚ) ≤ k := Nat.cast_le.mpr up
    linarith [near.2]
  · intro above
    by_contra below
    rw [not_le] at below
    have below' : (k : ℚ) + 1 ≤ m := by exact_mod_cast below
    have tie : x - k = 1 / 2 := by linarith [near.1]
    have next : m = k + 1 := by
      rw [← @Nat.cast_inj ℚ, Nat.cast_add, Nat.cast_one]
      linarith
    have even' : Even k := by
      refine rounded.elim (fun closer => ?_) And.right
      rw [abs_sub_comm, tie, abs_of_pos one_half_pos] at closer
      exact absurd closer (lt_irrefl _)
    rw [next] at even
    exact Nat.not_even_iff_odd.mpr even'.add_one even

/-- Rounding goes down to zero up to a half, as zero is even. -/
theorem eq_zero_iff (rounded : IsRoundedTo k x)
    : k = 0 ↔ x ≤ 1 / 2 := by
  have near := abs_le.mp rounded.abs_sub_le_half
  constructor
  · rintro rfl
    linarith [near.1, (Nat.cast_zero : ((0 : ℕ) : ℚ) = 0)]
  · intro small
    by_contra positive
    have positive' : (1 : ℚ) ≤ k := Nat.one_le_cast.mpr (Nat.one_le_iff_ne_zero.mpr positive)
    have one : k = 1 := by
      rw [← @Nat.cast_inj ℚ, Nat.cast_one]
      linarith [near.2]
    rcases rounded with closer | ⟨-, even⟩
    · rw [abs_lt] at closer
      linarith [closer.2]
    · exact absurd (one ▸ even) Nat.not_even_one

end IsRoundedTo

-----------------------------------------------------------------------------------------
-- Steps of a power of two
-----------------------------------------------------------------------------------------

/-- Powers of two as rational numbers. -/
@[simp]
theorem cast_twoTo (exponent : ℕ)
    : ((twoTo exponent : ℕ) : ℚ) = 2 ^ exponent :=
  Nat.cast_pow 2 exponent

/-- A magnitude is counted in steps of a power of two: so that the count has as many digits as the
precision, or in steps of one where there are fewer digits. The count is rounded to an integer.
-/
structure IsCounted (x : ℚ) (steps exponent : ℕ) : Prop where
  rounded : IsRoundedTo steps (x / 2 ^ exponent)
  few : steps ≤ twoTo 53
  high : x < 2 ^ (53 + exponent)
  low : 0 < exponent → 2 ^ (52 + exponent) ≤ x

/-- The excess digits of a natural number start at the power of two behind the precision. -/
theorem le_excessDigits {n exponent : ℕ} (large : 0 < exponent → twoTo (52 + exponent) ≤ n)
    : exponent ≤ excessDigits n := by
  rcases Nat.eq_zero_or_pos exponent with rfl | positive
  · exact Nat.zero_le _
  · have logs : 52 + exponent ≤ n.log2 :=
      (Nat.le_log2 (Nat.pos_iff_ne_zero.mp ((twoTo_pos _).trans_le (large positive)))).mpr
        (large positive)
    simp only [excessDigits, precision]
    omega

theorem excessDigits_le_of_lt {n exponent : ℕ} (small : n < twoTo (53 + exponent))
    : excessDigits n ≤ exponent := by
  rcases Nat.eq_zero_or_pos n with rfl | positive
  · simp [excessDigits, precision]
  · have logs := (log2_lt_iff positive _).mpr small
    simp only [excessDigits, precision]
    omega

/-- The arithmetic counts a quotient in such steps. -/
theorem isCounted_spacings (numerator : ℕ) {denominator : ℕ} (positive : 0 < denominator)
    : IsCounted (numerator / denominator) (Binary64.spacings numerator denominator)
        (Binary64.spacingExponent numerator denominator) := by
  have positive' : (0 : ℚ) < denominator := Nat.cast_pos.mpr positive
  refine ⟨?_, Binary64.spacings_le _ _, ?_, fun excess => ?_⟩
  · have rounded := isRoundedTo_roundHalfEven numerator
      (Nat.mul_pos positive (twoTo_pos (Binary64.spacingExponent numerator denominator)))
    rwa [Nat.cast_mul, cast_twoTo, ← div_div] at rounded
  · rw [div_lt_iff₀ positive', ← cast_twoTo, ← Nat.cast_mul, Nat.cast_lt,
      ← Nat.div_lt_iff_lt_mul positive]
    apply (lt_twoTo_log2_succ _).trans_le
    apply twoTo_le_twoTo
    simp only [Binary64.spacingExponent, excessDigits, precision]
    omega
  · rw [le_div_iff₀ positive', ← cast_twoTo, ← Nat.cast_mul, Nat.cast_le,
      ← Nat.le_div_iff_mul_le positive]
    have same : 52 + Binary64.spacingExponent numerator denominator
        = (numerator / denominator).log2 := by
      simp only [Binary64.spacingExponent, excessDigits, precision] at excess ⊢
      omega
    have nonzero : numerator / denominator ≠ 0 := by
      intro zero
      rw [zero, Nat.log2_zero] at same
      omega
    rw [same]
    exact Nat.log2_self_le nonzero

namespace IsCounted

variable {x : ℚ} {steps exponent : ℕ}

/-- Where steps are larger than one, the count has as many digits as the precision. -/
theorem many (counted : IsCounted x steps exponent) (larger : 0 < exponent)
    : twoTo 52 ≤ steps := by
  have even : Even (twoTo 52) := ⟨twoTo 51, by decide⟩
  rw [counted.rounded.le_iff_of_even even, cast_twoTo]
  have low := counted.low larger
  rw [pow_add, ← le_div_iff₀ (by positivity)] at low
  linarith

/-- An even count has an even significand. -/
theorem even_significand (counted : IsCounted x steps exponent) (even : Even steps)
    : Even (Binary64.significand (steps * twoTo exponent)) := by
  rcases counted.few.lt_or_eq with below | full
  · have same : excessDigits (steps * twoTo exponent) = exponent := by
      apply le_antisymm
      · apply excessDigits_le_of_lt
        rw [twoTo_add]
        exact Nat.mul_lt_mul_of_pos_right below (twoTo_pos _)
      · apply le_excessDigits
        intro larger
        rw [twoTo_add]
        exact Nat.mul_le_mul_right _ (counted.many larger)
    rw [Binary64.significand, same, Nat.mul_div_cancel _ (twoTo_pos _)]
    exact even
  · have same : excessDigits (steps * twoTo exponent) = exponent + 1 := by
      rw [full, ← twoTo_add, excessDigits, log2_twoTo]
      simp only [precision]
      omega
    have half : steps * twoTo exponent = twoTo 52 * twoTo (exponent + 1) := by
      rw [full, ← twoTo_add, ← twoTo_add]
      congr 1
      omega
    rw [Binary64.significand, same, half, Nat.mul_div_cancel _ (twoTo_pos _)]
    exact ⟨twoTo 51, by decide⟩

/-- An odd count of steps is its own significand: more digits cannot be beyond the precision. -/
theorem significand_of_odd {j : ℕ} (odd : ¬ Even j)
    (fine : exponent ≤ excessDigits (j * twoTo exponent))
    (exact : twoTo (excessDigits (j * twoTo exponent)) ∣ j * twoTo exponent)
    : Binary64.significand (j * twoTo exponent) = j := by
  obtain ⟨more, same⟩ := Nat.exists_eq_add_of_le fine
  rw [same, Nat.add_comm exponent, twoTo_add] at exact
  have divides : twoTo more ∣ j := Nat.dvd_of_mul_dvd_mul_right (twoTo_pos _) exact
  obtain rfl : more = 0 := by
    by_contra positive
    exact odd (even_iff_two_dvd.mpr ((dvd_pow_self 2 positive).trans divides))
  rw [Binary64.significand, same, Nat.add_zero, Nat.mul_div_cancel _ (twoTo_pos _)]

/-- Every other representable magnitude is farther away, or as far away and odd. On the grid of
the steps this is rounding to integers. What is off the grid lies below its beginning, which is
no larger than the magnitude and is nearer to it.
-/
theorem beats (counted : IsCounted x steps exponent) {other : ℕ}
    (representable : Representable other) (distinct : other ≠ steps * twoTo exponent)
    : |((steps * twoTo exponent : ℕ) : ℚ) - x| < |(other : ℚ) - x|
      ∨ |((steps * twoTo exponent : ℕ) : ℚ) - x| = |(other : ℚ) - x|
        ∧ Even (Binary64.significand (steps * twoTo exponent))
        ∧ ¬ Even (Binary64.significand other) := by
  have positive : (0 : ℚ) < 2 ^ exponent := by positivity
  have scaled : ∀ j : ℕ, |((j * twoTo exponent : ℕ) : ℚ) - x|
      = |(j : ℚ) - x / 2 ^ exponent| * 2 ^ exponent := by
    intro j
    rw [← abs_of_pos positive, ← abs_mul, abs_of_pos positive, sub_mul,
      div_mul_cancel₀ _ positive.ne', Nat.cast_mul, cast_twoTo]
  by_cases below : 0 < exponent ∧ other < twoTo (52 + exponent)
  · left
    obtain ⟨larger, below⟩ := below
    have low := counted.low larger
    have below' : (other : ℚ) < 2 ^ (52 + exponent) := by
      rw [← cast_twoTo]
      exact Nat.cast_lt.mpr below
    calc |((steps * twoTo exponent : ℕ) : ℚ) - x|
        ≤ |((twoTo 52 * twoTo exponent : ℕ) : ℚ) - x| := by
          rw [scaled, scaled]
          exact mul_le_mul_of_nonneg_right (counted.rounded.abs_sub_le_abs_sub _) positive.le
      _ = x - 2 ^ (52 + exponent) := by
          rw [← twoTo_add, cast_twoTo, abs_sub_comm, abs_of_nonneg (sub_nonneg.mpr low)]
      _ < x - other := by linarith
      _ ≤ |(other : ℚ) - x| := by
          rw [abs_sub_comm]
          exact le_abs_self _
  · have fine : exponent ≤ excessDigits other :=
      le_excessDigits fun larger => not_lt.mp fun small => below ⟨larger, small⟩
    obtain ⟨j, rfl⟩ :=
      exists_eq_mul_left_of_dvd ((twoTo_dvd_twoTo fine).trans representable.2)
    rw [scaled, scaled]
    have different : j ≠ steps := fun same => distinct (by rw [same])
    rcases counted.rounded.beats different with nearer | ⟨tie, even, odd⟩
    · exact .inl (mul_lt_mul_of_pos_right nearer positive)
    · refine .inr ⟨by rw [tie], counted.even_significand even, ?_⟩
      rwa [significand_of_odd odd fine representable.2]

/-- A magnitude up to a half is rounded to zero. -/
theorem eq_zero_iff (counted : IsCounted x steps exponent)
    : steps * twoTo exponent = 0 ↔ x ≤ 1 / 2 := by
  rw [Nat.mul_eq_zero, or_iff_left (twoTo_pos exponent).ne']
  rcases Nat.eq_zero_or_pos exponent with rfl | larger
  · have whole := counted.rounded
    rw [pow_zero, div_one] at whole
    exact whole.eq_zero_iff
  · have some : steps ≠ 0 := ((twoTo_pos 52).trans_le (counted.many larger)).ne'
    have one : (1 : ℚ) ≤ 2 ^ (52 + exponent) := one_le_pow₀ one_le_two
    have large := one.trans (counted.low larger)
    exact iff_of_false some (by linarith)

/-- A magnitude is rounded to the limit or beyond from halfway between the limit and the largest
magnitude below it on, since the limit has the even significand.
-/
theorem magnitudeLimit_le_iff (counted : IsCounted x steps exponent)
    : magnitudeLimit ≤ steps * twoTo exponent ↔ (2 ^ 54 - 1) * 2 ^ 2044 ≤ x := by
  have unit : (0 : ℚ) < 2 ^ 2044 := by positivity
  rcases lt_trichotomy exponent 2045 with small | rfl | large
  · apply iff_of_false <;> rw [not_le]
    · calc steps * twoTo exponent
          ≤ twoTo 53 * twoTo 2044 :=
            Nat.mul_le_mul counted.few (twoTo_le_twoTo (Nat.le_of_lt_succ small))
        _ < twoTo 54 * twoTo 2044 :=
            Nat.mul_lt_mul_of_pos_right (by decide) (twoTo_pos _)
        _ = twoTo 2098 := (twoTo_add 54 2044).symm
    · calc x
          < 2 ^ (53 + exponent) := counted.high
        _ ≤ 2 ^ (53 + 2044) := pow_le_pow_right₀ one_le_two (by omega)
        _ = 2 ^ 53 * 2 ^ 2044 := pow_add _ _ _
        _ ≤ (2 ^ 54 - 1) * 2 ^ 2044 := mul_le_mul_of_nonneg_right (by norm_num) unit.le
  · have limit : magnitudeLimit = twoTo 53 * twoTo 2045 := twoTo_add 53 2045
    have even : Even (twoTo 53) := ⟨twoTo 52, by decide⟩
    have halved : ∀ t : ℚ, (2 ^ 53 - 1 / 2) * (t * 2) = (2 ^ 54 - 1) * t := fun t => by ring
    have half : ((2 : ℚ) ^ 53 - 1 / 2) * 2 ^ 2045 = (2 ^ 54 - 1) * 2 ^ 2044 :=
      (congrArg _ (pow_succ 2 2044)).trans (halved _)
    rw [limit, Nat.mul_le_mul_right_iff (twoTo_pos _), counted.rounded.le_iff_of_even even,
      cast_twoTo, le_div_iff₀ (by positivity), half]
  · have beyond : (2 : ℚ) ^ 2098 ≤ x :=
      (pow_le_pow_right₀ one_le_two (by omega)).trans (counted.low (by omega))
    apply iff_of_true
    · calc twoTo 2098
          = twoTo 52 * twoTo 2046 := twoTo_add 52 2046
        _ ≤ steps * twoTo exponent :=
            Nat.mul_le_mul (counted.many (by omega)) (twoTo_le_twoTo large)
    · calc (2 ^ 54 - 1) * (2 : ℚ) ^ 2044
          ≤ 2 ^ 54 * 2 ^ 2044 := mul_le_mul_of_nonneg_right (by norm_num) unit.le
        _ = 2 ^ 2098 := (pow_add _ _ _).symm
        _ ≤ x := beyond

end IsCounted
end Reckoner
