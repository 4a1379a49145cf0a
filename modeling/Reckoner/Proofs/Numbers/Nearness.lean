import Mathlib.Algebra.Order.Field.Rat
import Mathlib.Algebra.Order.Ring.Abs
import Mathlib.Algebra.Ring.Parity
import Mathlib.Tactic.Linarith
import Reckoner.Number.Arithmetic

/-! The rational numbers that floating-point numbers are, and what it is for one of these to be
the nearest to a rational number. There is one nearest value at most, and a larger rational number
has no smaller one.
-/

namespace Reckoner
namespace Binary64

/-- The rational number that a finite number is, exactly. -/
def toRat? : Binary64 → Option ℚ
  | finite negative units _ => some ((signed negative units : ℚ) / (unitsInOne : ℚ))
  | infinite _ | nan => none

/-- The sign of a number, which zeros and infinities have as well. -/
def sign? : Binary64 → Option Bool
  | finite negative _ _ | infinite negative => some negative
  | nan => none

/-- A magnitude with the sign that is written before it. -/
def withSign (negative : Bool) (magnitude : ℚ) : ℚ :=
  if negative then -magnitude else magnitude

/-- The digits of a magnitude that are within the precision, as a natural number. -/
def significand (units : Nat) : Nat :=
  units / twoTo (excessDigits units)

/-- A finite number is even if the last digit of its significand is zero. -/
def IsEven : Binary64 → Prop
  | finite _ units _ => Even (significand units)
  | infinite _ | nan => False

/-- One number is at most another one. Infinities are beyond all finite numbers, and the value
that is no number is not comparable.
-/
inductive AtMost : Binary64 → Binary64 → Prop
  | lowest {b : Binary64} (number : b ≠ nan) : AtMost (infinite true) b
  | highest {a : Binary64} (number : a ≠ nan) : AtMost a (infinite false)
  | finite {a b : Binary64} {v w : ℚ} (left : a.toRat? = some v) (right : b.toRat? = some w)
    (ordered : v ≤ w)
    : AtMost a b

/-- A finite number is the nearest to a rational number if every finite number of another value is
farther away, or is as far away and has an odd significand where this one has an even one.
-/
def IsNearestTo (number : Binary64) (q : ℚ) : Prop :=
  ∃ v, number.toRat? = some v
    ∧ ∀ (other : Binary64) (w : ℚ), other.toRat? = some w → w ≠ v →
      |v - q| < |w - q| ∨ |v - q| = |w - q| ∧ number.IsEven ∧ ¬ other.IsEven

/-- From here on magnitudes are infinite: halfway between the largest finite number and the power
of two behind it, which would have the even significand.
-/
def overflowBound : ℚ :=
  2 ^ 1024 - 2 ^ 970

theorem overflowBound_pos
    : 0 < overflowBound :=
  sub_pos.mpr (pow_lt_pow_right₀ (by norm_num) (by norm_num))

/-- Up to here magnitudes are zero: halfway between zero, which is even, and the least positive
number.
-/
def underflowBound : ℚ :=
  1 / 2 ^ 1075

theorem underflowBound_pos
    : 0 < underflowBound :=
  one_div_pos.mpr (pow_pos two_pos _)

/-- A number is what a rational number is rounded to that is written with the given sign. A zero
keeps the sign that is written.
-/
structure Rounds (negative : Bool) (q : ℚ) (number : Binary64) : Prop where
  written : 0 ≤ withSign negative q
  sign : number.sign? = some negative
  infinite_iff : number = .infinite negative ↔ overflowBound ≤ |q|
  nearest : |q| < overflowBound → number.IsNearestTo q
  isZero_iff : number.isZero ↔ |q| ≤ underflowBound

namespace IsNearestTo

variable {number other : Binary64} {q r v w : ℚ}

/-- Two nearest numbers have the same value: neither can be nearer, and of two that are as near
only one has an even significand.
-/
theorem unique (nearest : number.IsNearestTo q) (nearest' : other.IsNearestTo q)
    (value : number.toRat? = some v) (value' : other.toRat? = some w)
    : v = w := by
  obtain ⟨v', same, beats⟩ := nearest
  obtain ⟨w', same', beats'⟩ := nearest'
  obtain rfl := Option.some.inj (value.symm.trans same)
  obtain rfl := Option.some.inj (value'.symm.trans same')
  by_contra distinct
  rcases beats other w value' (Ne.symm distinct) with nearer | ⟨tie, even, odd'⟩
  · rcases beats' number v value distinct with nearer' | ⟨tie', -⟩
    · exact lt_asymm nearer nearer'
    · exact absurd tie'.symm nearer.ne
  · rcases beats' number v value distinct with nearer' | ⟨-, even', -⟩
    · exact absurd tie nearer'.ne'
    · exact odd' even'

/-- Another finite number is not nearer. -/
theorem abs_sub_le (nearest : number.IsNearestTo q) (value : number.toRat? = some v)
    (value' : other.toRat? = some w)
    : |v - q| ≤ |w - q| := by
  obtain ⟨v', same, beats⟩ := nearest
  obtain rfl := Option.some.inj (value.symm.trans same)
  by_cases equal : w = v
  · rw [equal]
  · rcases beats other w value' equal with nearer | ⟨tie, -⟩
    · exact nearer.le
    · exact tie.le

/-- A larger rational number has no smaller nearest value: where the values cross, the rational
numbers do, so these are equal, and then so are the values.
-/
theorem le (nearest : number.IsNearestTo q) (nearest' : other.IsNearestTo r) (ordered : q ≤ r)
    (value : number.toRat? = some v) (value' : other.toRat? = some w)
    : v ≤ w := by
  by_contra above
  rw [not_le] at above
  have near : (v - q) ^ 2 ≤ (w - q) ^ 2 := sq_le_sq.mpr (nearest.abs_sub_le value value')
  have near' : (w - r) ^ 2 ≤ (v - r) ^ 2 := sq_le_sq.mpr (nearest'.abs_sub_le value' value)
  have crossed : (v - w) * r ≤ (v - w) * q := by linarith
  obtain rfl : q = r := le_antisymm ordered (le_of_mul_le_mul_left crossed (sub_pos.mpr above))
  exact above.ne' (nearest.unique nearest' value value')

end IsNearestTo

/-- A finite number is told by its sign and its value. -/
theorem eq_of_toRat? {number other : Binary64} {v : ℚ} (sign : number.sign? = other.sign?)
    (value : number.toRat? = some v) (value' : other.toRat? = some v)
    : number = other := by
  cases number with
  | infinite | nan => cases value
  | finite negative units exact =>
      cases other with
      | infinite | nan => cases value'
      | finite negative' units' exact' =>
          obtain rfl := Option.some.inj sign
          have positive : (unitsInOne : ℚ) ≠ 0 := Nat.cast_ne_zero.mpr (twoTo_pos _).ne'
          have same : (signed negative units : ℚ) / unitsInOne
              = (signed negative units' : ℚ) / unitsInOne :=
            Option.some.inj (value.trans value'.symm)
          rw [div_left_inj' positive, Int.cast_inj] at same
          obtain rfl : units = units' := by
            cases negative <;> simpa [signed] using same
          rfl

namespace Rounds

variable {negative negative' : Bool} {q r : ℚ} {number other : Binary64}

theorem ne_nan (rounds : Rounds negative q number)
    : number ≠ nan := by
  rintro rfl
  cases rounds.sign

/-- A rational number written with one sign is rounded to one number. -/
theorem unique (rounds : Rounds negative q number) (rounds' : Rounds negative q other)
    : number = other := by
  rcases le_or_gt overflowBound |q| with large | small
  · rw [rounds.infinite_iff.mpr large, rounds'.infinite_iff.mpr large]
  · obtain ⟨v, value, -⟩ := rounds.nearest small
    obtain ⟨w, value', -⟩ := rounds'.nearest small
    obtain rfl := (rounds.nearest small).unique (rounds'.nearest small) value value'
    exact eq_of_toRat? (rounds.sign.trans rounds'.sign.symm) value value'

/-- A rational number close to zero is rounded to the zero of the written sign. -/
theorem eq_signedZero (rounds : Rounds negative q number) (small : |q| ≤ underflowBound)
    : number = signedZero negative := by
  have zero := rounds.isZero_iff.mpr small
  cases number with
  | infinite | nan => cases zero
  | finite negative' units exact =>
      obtain rfl := Option.some.inj rounds.sign
      obtain rfl : units = 0 := beq_iff_eq.mp zero
      rfl

/-- A rational number far above zero is written without a sign and is rounded to infinity. -/
theorem eq_highest (rounds : Rounds negative q number) (large : overflowBound ≤ q)
    : number = infinite false := by
  have positive := overflowBound_pos
  cases negative with
  | true =>
      have written : 0 ≤ -q := rounds.written
      linarith
  | false => exact rounds.infinite_iff.mpr (large.trans (le_abs_self q))

/-- A rational number far below zero is written with a sign and is rounded to minus infinity. -/
theorem eq_lowest (rounds : Rounds negative q number) (large : q ≤ -overflowBound)
    : number = infinite true := by
  have positive := overflowBound_pos
  cases negative with
  | true => exact rounds.infinite_iff.mpr ((le_neg_of_le_neg large).trans (neg_le_abs q))
  | false =>
      have written : 0 ≤ q := rounds.written
      linarith

/-- A larger rational number is rounded to no smaller number. -/
theorem atMost (rounds : Rounds negative q number) (rounds' : Rounds negative' r other)
    (ordered : q ≤ r)
    : AtMost number other := by
  rcases le_or_gt overflowBound r with high' | notHigh'
  · rw [rounds'.eq_highest high']
    exact .highest rounds.ne_nan
  rcases le_or_gt q (-overflowBound) with low | notLow
  · rw [rounds.eq_lowest low]
    exact .lowest rounds'.ne_nan
  have nearest := rounds.nearest (abs_lt.mpr ⟨notLow, ordered.trans_lt notHigh'⟩)
  have nearest' := rounds'.nearest (abs_lt.mpr ⟨notLow.trans_le ordered, notHigh'⟩)
  obtain ⟨v, value, -⟩ := id nearest
  obtain ⟨w, value', -⟩ := id nearest'
  exact .finite value value' (nearest.le nearest' ordered value value')

end Rounds
end Binary64
end Reckoner
