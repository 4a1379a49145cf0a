import Mathlib.Data.Rat.Floor
import Reckoner.Operator.Apply
import Reckoner.Proofs.Numbers.Integers

/-! Remainders of floating-point numbers are exact, however far apart the two numbers are: what is
left of the dividend is less than the divisor and a multiple of the finer of their two spacings, so
that no rounding is needed.
-/

namespace Reckoner

-----------------------------------------------------------------------------------------
-- Truncation
-----------------------------------------------------------------------------------------

/-- A rational number without what stands behind the point: the next integer toward zero. -/
def truncate (q : ℚ) : ℤ :=
  if 0 ≤ q then ⌊q⌋ else ⌈q⌉

/-- Truncation takes away less than one, by the bounds of floor and ceiling. -/
theorem abs_sub_truncate_lt (q : ℚ)
    : |q - truncate q| < 1 := by
  by_cases nonneg : 0 ≤ q
  · have below := Int.floor_le q
    have above := Int.lt_floor_add_one q
    simp only [truncate, if_pos nonneg, abs_lt]
    constructor <;> linarith
  · have below := Int.ceil_lt_add_one q
    have above := Int.le_ceil q
    simp only [truncate, if_neg nonneg, abs_lt]
    constructor <;> linarith

/-- What truncation of a quotient leaves of the dividend is less than the divisor. -/
theorem abs_sub_mul_truncate_lt (v : ℚ) {w : ℚ} (nonzero : w ≠ 0)
    : |v - w * truncate (v / w)| < |w| := by
  have factored : v - w * truncate (v / w) = (v / w - truncate (v / w)) * w := by
    field_simp
  have small := mul_lt_mul_of_pos_right (abs_sub_truncate_lt (v / w)) (abs_pos.mpr nonzero)
  simpa only [factored, abs_mul, one_mul] using small

namespace Binary64

/-- A signed quotient of natural numbers is truncated to their integer quotient with its sign. -/
theorem truncate_withSign_div (negative : Bool) (a b : ℕ)
    : truncate (withSign negative (a / b)) = signed negative (a / b) := by
  have nonneg : (0 : ℚ) ≤ (a : ℚ) / b := div_nonneg (Nat.cast_nonneg a) (Nat.cast_nonneg b)
  have floor : ⌊(a : ℚ) / b⌋ = (a / b : ℕ) := Rat.floor_natCast_div_natCast a b
  cases negative with
  | false => simpa only [withSign, truncate, signed, nonneg, Bool.false_eq_true, if_false, if_true]
  | true =>
      rcases nonneg.eq_or_lt with zero | positive
      · simp [withSign, truncate, signed, ← zero, ← floor]
      · have negative : ¬ (0 : ℚ) ≤ -(a / b) := by linarith
        simp only [withSign, truncate, signed, negative, if_true, if_false, Int.ceil_neg, floor]

-----------------------------------------------------------------------------------------
-- Remainders
-----------------------------------------------------------------------------------------

/-- A remainder of magnitudes with the sign of the dividend is what the truncated quotient leaves.
Witness: the signs of the quotient and of the divisor make up that of the dividend.
-/
theorem signed_mod_eq (s t : Bool) (a b : ℕ)
    : signed s (a % b) = signed s a - signed t b * signed (s ^^ t) (a / b) := by
  have signs : (t ^^ (s ^^ t)) = s := by cases s <;> cases t <;> rfl
  have split : (a : ℤ) = (a % b : ℕ) + (b * (a / b) : ℕ) := by
    exact_mod_cast (Nat.mod_add_div a b).symm
  rw [← signed_xor, signs]
  cases s <;> simp only [signed, split, Bool.false_eq_true, if_true, if_false] <;> ring

/-- The quotient of two numbers does not depend on their unit. -/
theorem signed_div_signed (s t : Bool) (a b : ℕ)
    : (signed s a : ℚ) / unitsInOne / (signed t b / unitsInOne) = withSign (s ^^ t) (a / b) := by
  rw [div_div_div_cancel_right₀ unitsInOne_pos.ne']
  cases s <;> cases t <;> simp [withSign, neg_div, div_neg]

variable {a b : Binary64} {v w : ℚ}

theorem isZero_iff_toRat? (value : b.toRat? = some w)
    : b.isZero ↔ w = 0 := by
  cases b with
  | infinite | nan => cases value
  | finite t units exact =>
      obtain rfl := Option.some.inj value
      rw [isZero, beq_iff_eq, cast_signed, div_eq_zero_iff, or_iff_left unitsInOne_pos.ne']
      cases t <;> simp [withSign]

/-- The remainder of finite numbers has the exact value, and the sign of the dividend. -/
theorem toRat?_rem (left : a.toRat? = some v) (right : b.toRat? = some w) (nonzero : w ≠ 0)
    : (a.rem b).toRat? = some (v - w * truncate (v / w)) ∧ (a.rem b).sign? = a.sign? := by
  have divisor := (isZero_iff_toRat? right).not.mpr nonzero
  cases a with
  | infinite | nan => cases left
  | finite s units exact =>
      cases b with
      | infinite | nan => cases right
      | finite t units' exact' =>
          have positive : 0 < units' := by
            simpa [isZero, Nat.pos_iff_ne_zero] using divisor
          obtain rfl := Option.some.inj left
          obtain rfl := Option.some.inj right
          rw [rem, dif_pos positive]
          refine ⟨?_, rfl⟩
          rw [toRat?, signed_div_signed, truncate_withSign_div, signed_mod_eq s t]
          push_cast
          ring_nf

/-- The sign of the divisor does not matter. -/
theorem rem_neg (a b : Binary64)
    : a.rem b.neg = a.rem b := by
  cases a <;> cases b <;> rfl

theorem isZero_neg (b : Binary64)
    : b.neg.isZero = b.isZero := by
  cases b <;> rfl

/-- Where the dividend is not finite or the divisor is no number, there is no remainder. -/
theorem rem_eq_nan (none : ¬ a.IsFinite ∨ b = nan)
    : a.rem b = nan := by
  rcases none with unbounded | rfl
  · cases a with
    | finite s units exact => exact absurd ⟨s, units, exact, rfl⟩ unbounded
    | infinite | nan => rfl
  · cases a <;> rfl

end Binary64

namespace Operator

theorem apply_rem {a b : Binary64} (divisor : ¬ b.isZero) (line : ℕ)
    : rem.apply (.number a) (.number b) line = .ok (.number (a.rem b)) := by
  have computed : rem.compute a b line = .ok (a.rem b) := if_neg divisor
  have applied : rem.apply (.number a) (.number b) line
      = rem.compute a b line >>= fun result => .ok (.number result) := rfl
  rw [applied, computed]
  rfl

open Binary64 in
/-- The remainder is exact. For finite numbers it is what the divisor times the truncated quotient
leaves of the dividend, which is less than the divisor and is a number of the format itself; it has
the sign of the dividend, also where it is zero, and the sign of the divisor does not matter. An
infinite divisor leaves all of the dividend.
-/
theorem apply_rem_is_exact (a b : Binary64) (line : ℕ) (divisor : ¬ b.isZero)
    : ∃ r, rem.apply (.number a) (.number b) line = .ok (.number r)
      ∧ (∀ v w, a.toRat? = some v → b.toRat? = some w →
        r.toRat? = some (v - w * truncate (v / w))
        ∧ |v - w * truncate (v / w)| < |w|
        ∧ r.sign? = a.sign?
        ∧ rem.apply (.number a) (.number b.neg) line = .ok (.number r))
      ∧ (∀ negative, a.IsFinite → b = .infinite negative → r = a)
      ∧ (¬ a.IsFinite ∨ b = .nan → r = .nan) := by
  refine ⟨a.rem b, apply_rem divisor line, ?_, ?_, rem_eq_nan⟩
  · intro v w left right
    have nonzero := (isZero_iff_toRat? right).not.mp divisor
    have divisor' : ¬ b.neg.isZero := by rwa [isZero_neg]
    obtain ⟨exact, sign⟩ := toRat?_rem left right nonzero
    refine ⟨exact, abs_sub_mul_truncate_lt v nonzero, sign, ?_⟩
    rw [apply_rem divisor', rem_neg]
  · intro negative finite infinite
    obtain ⟨s, units, exact, rfl⟩ := finite
    subst infinite
    rfl

open Binary64 in
/-- A quotient of more than 2000 binary digits: minus the largest power of two leaves minus two of
the least positive numbers when divided by three of them.
-/
theorem apply_rem_is_exact_huge_quotient
    : let a := finite true (twoTo 2097) (by decide +kernel)
      let b := finite false 3 (by decide +kernel)
      ¬ b.isZero
      ∧ rem.apply (.number a) (.number b) 1 = .ok (.number (finite true 2 (by decide +kernel)))
      ∧ ∃ v w, a.toRat? = some v ∧ b.toRat? = some w
        ∧ |v - w * truncate (v / w)| < |w| := by
  intro a b
  have divisor : ¬ b.isZero := by decide
  obtain ⟨r, run, exact, -⟩ := apply_rem_is_exact a b 1 divisor
  refine ⟨divisor, by decide +kernel, _, _, rfl, rfl, (exact _ _ rfl rfl).2.1⟩

end Operator
end Reckoner
