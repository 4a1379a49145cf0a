import Reckoner.Number.Binary64

/-! Arithmetic of floating-point numbers: each result is the exact one, rounded once. -/

namespace Reckoner

/-- A smaller magnitude has no more excess digits than a larger one. -/
theorem excessDigits_le {a b : Nat} (ordered : a ≤ b)
    : excessDigits a ≤ excessDigits b := by
  rcases Nat.eq_zero_or_pos a with zero | positive
  · simp [zero, excessDigits, precision]
  · have logs : a.log2 ≤ b.log2 :=
      (Nat.le_log2 (Nat.ne_of_gt (Nat.lt_of_lt_of_le positive ordered))).mpr
        (Nat.le_trans (Nat.log2_self_le (Nat.ne_of_gt positive)) ordered)
    simp only [excessDigits]
    omega

/-- A remainder of representable magnitudes is representable.
Witness: a divisor's power of two divides every larger magnitude, hence the remainder,
which is smaller than the divisor.
-/
theorem Representable.mod {a b : Nat} (left : Representable a) (right : Representable b)
    (positive : 0 < b)
    : Representable (a % b) := by
  refine ⟨Nat.lt_of_le_of_lt (Nat.mod_le a b) left.1, ?_⟩
  rcases Nat.lt_or_ge a b with small | large
  · rw [Nat.mod_eq_of_lt small]
    exact left.2
  · have common : twoTo (excessDigits b) ∣ a % b :=
      (Nat.dvd_mod_iff right.2).mpr
        (Nat.dvd_trans (twoTo_dvd_twoTo (excessDigits_le large)) left.2)
    have fewer := excessDigits_le (Nat.le_of_lt (Nat.mod_lt a positive))
    exact Nat.dvd_trans (twoTo_dvd_twoTo fewer) common

namespace Binary64

/-- The magnitude with its sign. -/
def signed (negative : Bool) (units : Nat) : Int :=
  if negative then -units else units

/-- The number of opposite sign. -/
def neg : Binary64 → Binary64
  | .finite s a exact => .finite (!s) a exact
  | .infinite s => .infinite (!s)
  | .nan => .nan

/-- The rounded sum. A sum that is exactly zero is negative only for two negative zeros. -/
def add : Binary64 → Binary64 → Binary64
  | .finite s a _, .finite t b _ =>
      let sum := signed s a + signed t b
      nearest (if sum = 0 then s && t else sum < 0) sum.natAbs 1
  | .finite .., .infinite t => .infinite t
  | .infinite s, .finite .. => .infinite s
  | .infinite s, .infinite t => if s = t then .infinite s else .nan
  | _, _ => .nan

/-- The rounded difference: the sum with the opposite of the subtrahend. -/
def sub (a b : Binary64) : Binary64 :=
  add a b.neg

/-- The rounded product. Zero times an infinity is no number. -/
def mul : Binary64 → Binary64 → Binary64
  | .finite s a _, .finite t b _ => nearest (s ^^ t) (a * b) unitsInOne
  | .finite s a _, .infinite t => if a = 0 then .nan else .infinite (s ^^ t)
  | .infinite s, .finite t b _ => if b = 0 then .nan else .infinite (s ^^ t)
  | .infinite s, .infinite t => .infinite (s ^^ t)
  | _, _ => .nan

/-- The rounded quotient. Dividing by zero gives an infinity, except for zero itself. -/
def div : Binary64 → Binary64 → Binary64
  | .finite s a _, .finite t b _ =>
      if b = 0 then
        if a = 0 then .nan else .infinite (s ^^ t)
      else
        nearest (s ^^ t) (a * unitsInOne) b
  | .finite s _ _, .infinite t => signedZero (s ^^ t)
  | .infinite s, .finite t _ _ => .infinite (s ^^ t)
  | _, _ => .nan

/-- The remainder of the division truncated toward zero, which is always exact and has the
sign of the dividend.
-/
def rem : Binary64 → Binary64 → Binary64
  | .finite s a left, .finite _ b right =>
      if positive : 0 < b then .finite s (a % b) (left.mod right positive) else .nan
  | .finite s a exact, .infinite _ => .finite s a exact
  | _, _ => .nan

end Binary64
end Reckoner
