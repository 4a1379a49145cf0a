import Mathlib.Data.Nat.Cast.Field
import Mathlib.Data.Nat.Prime.Basic
import Reckoner.Proofs.Numbers.Reading
import Reckoner.Proofs.Numbers.Whole

/-! The shortest decimals. Cutting digits off the exact decimal of a number leads to a decimal that
is read as the number, has as few digits as any that is, and is the nearest of those. The decimals
that are read as one number are an interval, and no decimal with few digits lies strictly between
the two neighbours of the exact one with as many.
-/

namespace Reckoner
namespace Binary64

-----------------------------------------------------------------------------------------
-- What is read as one number
-----------------------------------------------------------------------------------------

/-- Numbers of one sign that are at most each other are the same. -/
theorem AtMost.antisymm {a b : Binary64} (atMost : AtMost a b) (atLeast : AtMost b a)
    (sign : a.sign? = b.sign?)
    : a = b := by
  cases atMost with
  | lowest =>
      cases atLeast with
      | lowest => rfl
      | finite _ right => cases right
  | highest =>
      cases atLeast with
      | highest => rfl
      | finite left => cases left
  | finite left right ordered =>
      cases atLeast with
      | lowest => cases right
      | highest => cases left
      | finite left' right' ordered' =>
          obtain rfl := Option.some.inj (left.symm.trans right')
          obtain rfl := Option.some.inj (right.symm.trans left')
          rw [le_antisymm ordered ordered'] at left
          exact eq_of_toRat? sign left right

end Binary64

namespace Decimal

variable {number : Binary64} {d lower upper : Decimal}

/-- What lies between two decimals that are read as a number is read as it, too. -/
theorem nearest_eq_of_between (below : lower.toRat ≤ d.toRat) (above : d.toRat ≤ upper.toRat)
    (reads : lower.nearest false = number) (reads' : upper.nearest false = number)
    : d.nearest false = number := by
  have rounds := lower.rounds_nearest false
  have rounds' := upper.rounds_nearest false
  rw [reads] at rounds
  rw [reads'] at rounds'
  have atMost := (d.rounds_nearest false).atMost rounds' above
  have atLeast := rounds.atMost (d.rounds_nearest false) below
  exact atMost.antisymm atLeast ((d.rounds_nearest false).sign.trans rounds.sign.symm)

/-- The sign is written on what the magnitude is read as. -/
theorem nearest_eq_finite_iff {negative negative' : Bool} {units : ℕ} {exact : Representable units}
    : d.nearest negative = .finite negative' units exact
      ↔ negative = negative' ∧ d.nearest false = .finite false units exact := by
  rw [nearest, nearest]
  split
  · simp [Binary64.signedZero]
  split
  · simp
  split
  · simp [Binary64.signedZero]
  · rw [Binary64.nearest, Binary64.nearest]
    split
    · simp
    · simp

-----------------------------------------------------------------------------------------
-- Numbers of digits
-----------------------------------------------------------------------------------------

/-- How many digits the coefficient has. -/
def width (d : Decimal) : ℕ :=
  (Nat.toDigits 10 d.coefficient).length

theorem width_pos (d : Decimal)
    : 0 < d.width :=
  List.length_pos_of_ne_nil Nat.toDigits_ne_nil

theorem width_le_iff {digits : ℕ} (positive : 0 < digits)
    : d.width ≤ digits ↔ d.coefficient < 10 ^ digits :=
  Nat.length_toDigits_le_iff (by decide) positive

theorem toRat_lt_of_width_le {digits : ℕ} (short : d.width ≤ digits)
    : d.toRat < 10 ^ (digits + d.exponent) := by
  have below := (width_le_iff (d.width_pos.trans_le short)).mp short
  rw [toRat, zpow_add₀ (by norm_num), zpow_natCast]
  exact mul_lt_mul_of_pos_right (by exact_mod_cast below) (zpow_pos (by norm_num) _)

/-- With one exponent, decimals are ordered as their coefficients. -/
theorem toRat_le_toRat {m n : ℕ} (ordered : m ≤ n) (exponent : ℤ)
    : ({ coefficient := m, exponent := exponent } : Decimal).toRat
      ≤ ({ coefficient := n, exponent := exponent } : Decimal).toRat :=
  mul_le_mul_of_nonneg_right (Nat.cast_le.mpr ordered) (zpow_nonneg (by norm_num) _)

/-- With a smaller exponent, a decimal has zeros at the end of its coefficient. -/
theorem exists_toRat_eq (d : Decimal) {exponent : ℤ} (fine : exponent ≤ d.exponent)
    : ∃ coefficient,
        d.toRat = ({ coefficient := coefficient, exponent := exponent } : Decimal).toRat := by
  obtain ⟨zeros, same⟩ := Int.le.dest fine
  refine ⟨d.coefficient * 10 ^ zeros, ?_⟩
  rw [toRat, toRat, ← same, zpow_add₀ (by norm_num), zpow_natCast]
  push_cast
  ring

end Decimal

/-- A magnitude has at most so many significant digits: it is a natural number of no more digits,
times a power of ten.
-/
def HasAtMostDigits (magnitude : ℚ) (digits : ℕ) : Prop :=
  ∃ d : Decimal, d.width ≤ digits ∧ d.toRat = magnitude

/-- The next power of ten needs no more digits, as it is one times another power of ten. -/
theorem hasAtMostDigits_of_le {d : Decimal} {digits : ℕ} (positive : 0 < digits)
    (small : d.coefficient ≤ 10 ^ digits)
    : HasAtMostDigits d.toRat digits := by
  rcases small.lt_or_eq with below | power
  · exact ⟨d, (Decimal.width_le_iff positive).mpr below, rfl⟩
  · refine ⟨{ coefficient := 1, exponent := digits + d.exponent }, ?_, ?_⟩
    · exact (Decimal.width_le_iff positive).mpr (Nat.one_lt_pow positive.ne' (by decide))
    · rw [Decimal.toRat, Decimal.toRat, power, zpow_add₀ (by norm_num), zpow_natCast]
      push_cast
      ring

namespace Binary64

-----------------------------------------------------------------------------------------
-- Neighbours
-----------------------------------------------------------------------------------------

/-- One of the two decimals that are next to another one after cutting digits off it. -/
def IsNeighbour (exact : Decimal) (dropped : ℕ) (d : Decimal) : Prop :=
  d = lowerDecimal exact dropped ∨ d = upperDecimal exact dropped

section Neighbours

variable {number : Binary64} {exact d other : Decimal} {dropped : ℕ}

/-- A coefficient is what is cut off it and the rest. -/
theorem cast_mod_add_div (coefficient dropped : ℕ)
    : ((coefficient % tenTo dropped : ℕ) : ℚ) + 10 ^ dropped * (coefficient / tenTo dropped : ℕ)
      = coefficient := by
  exact_mod_cast Nat.mod_add_div coefficient (tenTo dropped)

/-- The digits that are cut off are what is missing to the exact decimal. -/
theorem toRat_sub_lowerDecimal (exact : Decimal) (dropped : ℕ)
    : exact.toRat - (lowerDecimal exact dropped).toRat
      = (exact.coefficient % tenTo dropped : ℕ) * 10 ^ exact.exponent := by
  rw [Decimal.toRat, Decimal.toRat, lowerDecimal, zpow_add₀ (by norm_num), zpow_natCast,
    ← cast_mod_add_div exact.coefficient dropped]
  ring

theorem upperDecimal_sub_toRat (exact : Decimal) (dropped : ℕ)
    : (upperDecimal exact dropped).toRat - exact.toRat
      = (tenTo dropped - (exact.coefficient % tenTo dropped : ℕ)) * 10 ^ exact.exponent := by
  rw [Decimal.toRat, Decimal.toRat, upperDecimal, zpow_add₀ (by norm_num), zpow_natCast, cast_tenTo,
    ← cast_mod_add_div exact.coefficient dropped]
  push_cast
  ring

theorem lowerDecimal_le (exact : Decimal) (dropped : ℕ)
    : (lowerDecimal exact dropped).toRat ≤ exact.toRat := by
  rw [← sub_nonneg, toRat_sub_lowerDecimal]
  exact mul_nonneg (Nat.cast_nonneg _) (zpow_nonneg (by norm_num) _)

theorem le_upperDecimal (exact : Decimal) (dropped : ℕ)
    : exact.toRat ≤ (upperDecimal exact dropped).toRat := by
  have below : exact.coefficient % tenTo dropped ≤ tenTo dropped :=
    (Nat.mod_lt _ (tenTo_pos dropped)).le
  rw [← sub_nonneg, upperDecimal_sub_toRat]
  exact mul_nonneg (sub_nonneg.mpr (Nat.cast_le.mpr below)) (zpow_nonneg (by norm_num) _)

/-- The upper neighbour is as near as the lower one or nearer if what is cut off is half of the
distance between them or more.
-/
theorem upperDecimal_near_iff (exact : Decimal) (dropped : ℕ)
    : |(upperDecimal exact dropped).toRat - exact.toRat|
        ≤ |(lowerDecimal exact dropped).toRat - exact.toRat|
      ↔ tenTo dropped ≤ 2 * (exact.coefficient % tenTo dropped) := by
  have positive : (0 : ℚ) < 10 ^ exact.exponent := zpow_pos (by norm_num) _
  rw [abs_of_nonneg (sub_nonneg.mpr (le_upperDecimal exact dropped)), abs_sub_comm,
    abs_of_nonneg (sub_nonneg.mpr (lowerDecimal_le exact dropped)), toRat_sub_lowerDecimal,
    upperDecimal_sub_toRat, mul_le_mul_iff_of_pos_right positive, sub_le_iff_le_add, ← two_mul]
  exact_mod_cast Iff.rfl

/-- Where more than some number of digits is left, the lower neighbour has reached that power of
ten: cutting off fewer digits than there are leaves the first one.
-/
theorem ten_pow_le_lowerDecimal {digits : ℕ} (positive : 0 < dropped)
    (long : digits + dropped < exact.width)
    : 10 ^ (digits + (exact.exponent + dropped)) ≤ (lowerDecimal exact dropped).toRat := by
  have large : 10 ^ (digits + dropped) ≤ exact.coefficient := by
    rw [← not_lt, ← Decimal.width_le_iff (by omega), not_le]
    exact long
  have reached : 10 ^ digits ≤ exact.coefficient / tenTo dropped := by
    rw [Nat.le_div_iff_mul_le (tenTo_pos dropped)]
    rwa [Nat.pow_add] at large
  calc (10 : ℚ) ^ (digits + (exact.exponent + dropped))
      = (10 ^ digits : ℕ) * 10 ^ (exact.exponent + dropped) := by
        rw [zpow_add₀ (by norm_num), zpow_natCast, Nat.cast_pow, Nat.cast_ofNat]
    _ ≤ (lowerDecimal exact dropped).toRat := Decimal.toRat_le_toRat reached _

/-- What has as few digits as the neighbours do does not lie strictly between them: with a large
exponent it is a multiple of their distance, and with a smaller one it is below a power of ten that
the lower neighbour has reached.
-/
theorem not_between_neighbours (positive : 0 < dropped)
    (short : other.width + dropped ≤ exact.width)
    : other.toRat ≤ (lowerDecimal exact dropped).toRat
      ∨ (upperDecimal exact dropped).toRat ≤ other.toRat := by
  rcases le_or_gt (exact.exponent + dropped) other.exponent with coarse | fine
  · obtain ⟨multiple, same⟩ := other.exists_toRat_eq coarse
    rw [same]
    rcases Nat.lt_or_ge (exact.coefficient / tenTo dropped) multiple with above | below
    · exact .inr (Decimal.toRat_le_toRat above _)
    · exact .inl (Decimal.toRat_le_toRat below _)
  · left
    obtain ⟨digits, width⟩ := Nat.exists_eq_succ_of_ne_zero other.width_pos.ne'
    calc other.toRat
        ≤ 10 ^ (other.width + other.exponent) := (Decimal.toRat_lt_of_width_le le_rfl).le
      _ ≤ 10 ^ (digits + (exact.exponent + dropped)) :=
        zpow_le_zpow_right₀ (by norm_num) (by omega)
      _ ≤ (lowerDecimal exact dropped).toRat := ten_pow_le_lowerDecimal positive (by omega)

/-- If a decimal with few digits is read as the number, a neighbour is that is no farther away: the
one on its side of the exact decimal lies between the two.
-/
theorem exists_neighbour (reads : exact.nearest false = number) (positive : 0 < dropped)
    (short : other.width + dropped ≤ exact.width) (reads' : other.nearest false = number)
    : ∃ d, IsNeighbour exact dropped d ∧ d.nearest false = number
      ∧ |d.toRat - exact.toRat| ≤ |other.toRat - exact.toRat| := by
  have low := lowerDecimal_le exact dropped
  have high := le_upperDecimal exact dropped
  rcases not_between_neighbours positive short with below | above
  · refine ⟨_, .inl rfl, Decimal.nearest_eq_of_between below low reads' reads, ?_⟩
    rw [abs_sub_comm, abs_sub_comm other.toRat, abs_of_nonneg (sub_nonneg.mpr low),
      abs_of_nonneg (sub_nonneg.mpr (below.trans low))]
    exact sub_le_sub_left below _
  · refine ⟨_, .inr rfl, Decimal.nearest_eq_of_between high above reads reads', ?_⟩
    rw [abs_of_nonneg (sub_nonneg.mpr high), abs_of_nonneg (sub_nonneg.mpr (high.trans above))]
    exact sub_le_sub_right above _

/-- The neighbour that is chosen is read as the number, and the other one is no nearer if it is,
too.
-/
theorem of_neighbour?_eq_some (found : neighbour? number exact dropped = some d)
    : IsNeighbour exact dropped d ∧ d.nearest false = number
      ∧ ∀ other, IsNeighbour exact dropped other → other.nearest false = number →
        |d.toRat - exact.toRat| ≤ |other.toRat - exact.toRat| := by
  have near := upperDecimal_near_iff exact dropped
  simp only [neighbour?] at found
  split at found
  · next low =>
      split at found
      · next high =>
          cases found
          refine ⟨.inr rfl, high.1, ?_⟩
          rintro _ (rfl | rfl) -
          · exact near.mpr high.2
          · exact le_rfl
      · next notHigh =>
          cases found
          refine ⟨.inl rfl, low, ?_⟩
          rintro _ (rfl | rfl) reads
          · exact le_rfl
          · exact (not_le.mp fun nearer => notHigh ⟨reads, near.mp nearer⟩).le
  · next notLow =>
      split at found
      · next high =>
          cases found
          refine ⟨.inr rfl, high, ?_⟩
          rintro _ (rfl | rfl) reads
          · exact absurd reads notLow
          · exact le_rfl
      · cases found

theorem not_isNeighbour_of_neighbour?_eq_none (none : neighbour? number exact dropped = none)
    (reads : d.nearest false = number)
    : ¬ IsNeighbour exact dropped d := by
  rintro (rfl | rfl)
  · simp only [neighbour?, if_pos reads] at none
    split at none <;> cases none
  · simp only [neighbour?, if_pos reads] at none
    split at none
    · split at none <;> cases none
    · cases none

/-- A neighbour has no more digits than are left, or is the next power of ten. -/
theorem IsNeighbour.hasAtMostDigits (neighbour : IsNeighbour exact dropped d)
    (few : dropped < exact.width)
    : HasAtMostDigits d.toRat (exact.width - dropped) := by
  have below : exact.coefficient / tenTo dropped < 10 ^ (exact.width - dropped) := by
    have small := (Decimal.width_le_iff exact.width_pos).mp le_rfl
    rw [Nat.div_lt_iff_lt_mul (tenTo_pos dropped)]
    rwa [← Nat.sub_add_cancel few.le, Nat.pow_add] at small
  rcases neighbour with rfl | rfl
  · exact hasAtMostDigits_of_le (Nat.sub_pos_of_lt few) below.le
  · exact hasAtMostDigits_of_le (Nat.sub_pos_of_lt few) below

end Neighbours

-----------------------------------------------------------------------------------------
-- Cutting off as many digits as possible
-----------------------------------------------------------------------------------------

/-- A decimal is read as a number, no decimal that is has fewer digits, and of those with as many
none is nearer to the exact one.
-/
structure IsShortest (number : Binary64) (exact d : Decimal) (digits : ℕ) : Prop where
  reads : d.nearest false = number
  short : HasAtMostDigits d.toRat digits
  beats : ∀ other : Decimal, other.nearest false = number →
    digits ≤ other.width
      ∧ (other.width = digits → |d.toRat - exact.toRat| ≤ |other.toRat - exact.toRat|)

/-- The first neighbour that is read as the number is the shortest decimal, by induction on the
digits to cut off. If neither neighbour is, then no decimal with as many digits is.
-/
theorem isShortest_shortestFrom {number : Binary64} {exact : Decimal} {dropped : ℕ}
    (reads : exact.nearest false = number) (few : dropped < exact.width)
    (long : ∀ other : Decimal, other.nearest false = number → exact.width - dropped ≤ other.width)
    : ∃ digits, IsShortest number exact (shortestFrom number exact dropped) digits := by
  induction dropped with
  | zero =>
      refine ⟨exact.width, reads, ⟨exact, le_rfl, rfl⟩, fun other same => ?_⟩
      refine ⟨long other same, fun _ => ?_⟩
      rw [shortestFrom, sub_self, abs_zero]
      exact abs_nonneg _
  | succ dropped ih =>
      have closest {other : Decimal} (same : other.nearest false = number)
          (width : other.width = exact.width - (dropped + 1)) :=
        exists_neighbour reads (Nat.succ_pos dropped) (by omega) same
      rw [shortestFrom]
      split
      · next d found =>
          obtain ⟨neighbour, chosen, near⟩ := of_neighbour?_eq_some found
          refine ⟨_, chosen, neighbour.hasAtMostDigits few, fun other same => ?_⟩
          refine ⟨long other same, fun width => ?_⟩
          obtain ⟨between, next, reads', nearer⟩ := closest same width
          exact (near between next reads').trans nearer
      · next none =>
          refine ih (by omega) fun other same => ?_
          have more : other.width ≠ exact.width - (dropped + 1) := by
            intro width
            obtain ⟨between, next, reads', -⟩ := closest same width
            exact not_isNeighbour_of_neighbour?_eq_none none reads' next
          have least := long other same
          omega

-----------------------------------------------------------------------------------------
-- The exact decimal
-----------------------------------------------------------------------------------------

/-- What a number has in common with a power of two is a power of two. -/
theorem exists_gcd_twoTo (units exponent : ℕ)
    : ∃ common ≤ exponent, units.gcd (twoTo exponent) = twoTo common :=
  (Nat.dvd_prime_pow Nat.prime_two).mp (Nat.gcd_dvd_right units (twoTo exponent))

/-- With its decimal places, a magnitude is a whole number: the power of ten holds the twos of one
unit that the magnitude does not have.
-/
theorem unitsInOne_dvd (units : ℕ)
    : unitsInOne ∣ units * tenTo (exactPlaces units) := by
  obtain ⟨common, small, gcd⟩ := exists_gcd_twoTo units unitExponent
  have places : exactPlaces units = unitExponent - common := by
    rw [exactPlaces, unitsInOne, gcd, log2_twoTo]
  have parts : unitsInOne = twoTo common * twoTo (exactPlaces units) := by
    rw [← twoTo_add, places, Nat.add_sub_cancel' small, unitsInOne]
  have first : twoTo common ∣ units := gcd ▸ Nat.gcd_dvd_left units (twoTo unitExponent)
  have second : twoTo (exactPlaces units) ∣ tenTo (exactPlaces units) :=
    pow_dvd_pow_of_dvd (by decide) _
  rw [parts]
  exact Nat.mul_dvd_mul first second

/-- The exact decimal of a magnitude is the magnitude. -/
theorem toRat_exactDecimal (units : ℕ)
    : (exactDecimal units).toRat = units / unitsInOne := by
  have ten : (10 : ℚ) ^ exactPlaces units ≠ 0 := by positivity
  rw [Decimal.toRat, exactDecimal, Nat.cast_div (unitsInOne_dvd units) unitsInOne_pos.ne',
    zpow_neg, zpow_natCast, Nat.cast_mul, cast_tenTo, div_mul_eq_mul_div, mul_inv_cancel_right₀ ten]

/-- The exact decimal is read as the number. -/
theorem nearest_exactDecimal {units : ℕ} (exact : Representable units)
    : (exactDecimal units).nearest false = .finite false units exact := by
  have rounds := rounds_nearest false units Nat.one_pos
  rw [nearest_of_representable false exact, Nat.cast_one, div_one, ← toRat_exactDecimal] at rounds
  exact ((exactDecimal units).rounds_nearest false).unique rounds

theorem isShortest_shortestDecimal {units : ℕ} (exact : Representable units)
    : ∃ digits,
        IsShortest (.finite false units exact) (exactDecimal units) (shortestDecimal units exact)
          digits := by
  refine isShortest_shortestFrom (nearest_exactDecimal exact) ?_ fun other _ => ?_
  · exact Nat.sub_one_lt (exactDecimal units).width_pos.ne'
  · have first := other.width_pos
    have digits : (Nat.toDigits 10 (exactDecimal units).coefficient).length
        = (exactDecimal units).width := rfl
    omega

end Binary64
end Reckoner
