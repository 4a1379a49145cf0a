/-! Rounding a quotient of natural numbers to the nearest integer, ties to even. -/

namespace Reckoner

/-- The integer nearest to `numerator / denominator`; of two equally near, the even one. -/
def roundHalfEven (numerator denominator : Nat) : Nat :=
  let floor := numerator / denominator
  let twice := 2 * (numerator % denominator)
  if twice < denominator then
    floor
  else if denominator < twice then
    floor + 1
  else
    floor + floor % 2

/-- Rounding moves a quotient to one of its two integer neighbours.
Witness: the result is the floor or its successor, and a tie adds the floor's parity.
-/
theorem roundHalfEven_le_succ (numerator denominator : Nat)
    : roundHalfEven numerator denominator ≤ numerator / denominator + 1 := by
  simp only [roundHalfEven]
  split
  · omega
  · split <;> omega

/-- Rounding never goes below the floor of the quotient. -/
theorem le_roundHalfEven (numerator denominator : Nat)
    : numerator / denominator ≤ roundHalfEven numerator denominator := by
  simp only [roundHalfEven]
  split
  · omega
  · split <;> omega

end Reckoner
