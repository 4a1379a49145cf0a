import Reckoner.Number.Power
import Reckoner.Number.Rounding

/-! Numbers of the 64-bit binary floating-point format, kept as whole multiples of their
least positive one.
-/

namespace Reckoner

/-- How many binary digits a number has at most, from its first to its last nonzero one. -/
def precision : Nat := 53

/-- The unit of magnitude is the least positive number, two to the power of minus this. -/
def unitExponent : Nat := 1074

/-- From two to the power of this many units on, magnitudes are infinite. -/
def limitExponent : Nat := 2098

/-- How many units make the number one. -/
def unitsInOne : Nat :=
  twoTo unitExponent

/-- The magnitude, in units, from which on a number is infinite: `2 ^ 1024`. -/
def magnitudeLimit : Nat :=
  twoTo limitExponent

/-- How many of the binary digits of a magnitude lie beyond the precision. -/
def excessDigits (units : Nat) : Nat :=
  units.log2 + 1 - precision

/-- The magnitudes that the format holds, counted in units: those below the limit whose
digits beyond the precision are zeros.
-/
abbrev Representable (units : Nat) : Prop :=
  units < magnitudeLimit ∧ twoTo (excessDigits units) ∣ units

/-- Zero is representable: it lies below the limit, and everything divides it. -/
theorem representable_zero
    : Representable 0 :=
  ⟨twoTo_pos limitExponent, Nat.dvd_zero _⟩

/-- A floating-point number: a signed multiple of the unit, an infinity, or the one value
that stands for no number. Zero has two signs, and equality of this type tells them apart.
-/
inductive Binary64
  | finite (negative : Bool) (units : Nat) (exact : Representable units)
  | infinite (negative : Bool)
  | nan
  deriving DecidableEq

/-- As many steps of a power of two as the precision allows need no digits beyond it.
Witness: below two to the precision the product has at most the exponent in excess digits,
and at that number of steps it is a power of two itself.
-/
theorem twoTo_excessDigits_dvd {steps : Nat} (few : steps ≤ twoTo precision) (exponent : Nat)
    : twoTo (excessDigits (steps * twoTo exponent)) ∣ steps * twoTo exponent := by
  rcases Nat.eq_zero_or_pos steps with zero | positive
  · simp [zero]
  · rcases Nat.lt_or_eq_of_le few with below | full
    · have product : 0 < steps * twoTo exponent := Nat.mul_pos positive (twoTo_pos exponent)
      have bound : (steps * twoTo exponent).log2 < precision + exponent := by
        apply (log2_lt_iff product _).mpr
        rw [twoTo_add]
        exact Nat.mul_lt_mul_of_pos_right below (twoTo_pos exponent)
      exact Nat.dvd_mul_left_of_dvd
        (twoTo_dvd_twoTo (by simp only [excessDigits]; omega)) steps
    · rw [full, ← twoTo_add, excessDigits, log2_twoTo]
      exact twoTo_dvd_twoTo (by simp only [precision]; omega)

namespace Binary64

/-- The zero of the given sign. -/
def signedZero (negative : Bool) : Binary64 :=
  .finite negative 0 representable_zero

/-- The binary exponent of the spacing, in units, of the numbers around a quotient. -/
def spacingExponent (numerator denominator : Nat) : Nat :=
  excessDigits (numerator / denominator)

/-- How many spacings a quotient amounts to, to the nearest, ties to even. -/
def spacings (numerator denominator : Nat) : Nat :=
  roundHalfEven numerator (denominator * twoTo (spacingExponent numerator denominator))

/-- The number of spacings stays within the precision, or is the next power of two.
Witness: dividing the quotient by its spacing leaves fewer than two to the precision, and
rounding adds at most one.
-/
theorem spacings_le (numerator denominator : Nat)
    : spacings numerator denominator ≤ twoTo precision := by
  have above := roundHalfEven_le_succ numerator
    (denominator * twoTo (spacingExponent numerator denominator))
  have below
      : numerator / (denominator * twoTo (spacingExponent numerator denominator))
          < twoTo precision := by
    rw [← Nat.div_div_eq_div_mul]
    apply Nat.div_lt_of_lt_mul
    rw [← twoTo_add]
    apply Nat.lt_of_lt_of_le (lt_twoTo_log2_succ _)
    apply twoTo_le_twoTo
    simp only [spacingExponent, excessDigits]
    omega
  exact Nat.le_trans above below

/-- The number nearest to a quotient of units, ties to even: the one rule by which every
result of the format is rounded. Magnitudes that round to `2 ^ 1024` or more are infinite.
-/
def nearest (negative : Bool) (numerator denominator : Nat) : Binary64 :=
  let units := spacings numerator denominator * twoTo (spacingExponent numerator denominator)
  if small : units < magnitudeLimit then
    .finite negative units ⟨small, twoTo_excessDigits_dvd (spacings_le _ _) _⟩
  else
    .infinite negative

/-- Whether a number is a zero, of either sign. -/
def isZero : Binary64 → Bool
  | .finite _ units _ => units == 0
  | .infinite _ | .nan => false

/-- Numeric equality: the two zeros are equal, and the value that is no number equals
nothing, itself included.
-/
def numericallyEqual : Binary64 → Binary64 → Bool
  | .finite s a _, .finite t b _ => a == b && (s == t || a == 0)
  | .infinite s, .infinite t => s == t
  | _, _ => false

end Binary64
end Reckoner
