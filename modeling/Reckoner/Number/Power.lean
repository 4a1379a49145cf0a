/-! Powers of two and of ten, which space the binary and the decimal numbers. -/

namespace Reckoner

/-- Two to the power of a natural number. -/
def twoTo (exponent : Nat) : Nat :=
  Nat.pow 2 exponent

/-- Ten to the power of a natural number. -/
def tenTo (exponent : Nat) : Nat :=
  Nat.pow 10 exponent

/-- Powers of two are positive. -/
theorem twoTo_pos (exponent : Nat)
    : 0 < twoTo exponent :=
  Nat.two_pow_pos exponent

/-- Powers of ten are positive. -/
theorem tenTo_pos (exponent : Nat)
    : 0 < tenTo exponent :=
  Nat.pow_pos (by decide)

/-- The power of a sum is the product of the powers. -/
theorem twoTo_add (m n : Nat)
    : twoTo (m + n) = twoTo m * twoTo n :=
  Nat.pow_add 2 m n

/-- Powers of two are ordered as their exponents. -/
theorem twoTo_le_twoTo {m n : Nat} (ordered : m ≤ n)
    : twoTo m ≤ twoTo n :=
  Nat.pow_le_pow_right (by decide) ordered

/-- A larger exponent gives a larger power of two. -/
theorem twoTo_lt_twoTo {m n : Nat} (ordered : m < n)
    : twoTo m < twoTo n :=
  Nat.pow_lt_pow_right (by decide) ordered

/-- A power of two divides the next and all later ones. -/
theorem twoTo_dvd_twoTo {m n : Nat} (ordered : m ≤ n)
    : twoTo m ∣ twoTo n :=
  Nat.pow_dvd_pow 2 ordered

/-- The logarithm undoes the power. -/
theorem log2_twoTo (exponent : Nat)
    : (twoTo exponent).log2 = exponent :=
  Nat.log2_two_pow

/-- A positive number has a smaller logarithm than a power of two above it, and no other. -/
theorem log2_lt_iff {n : Nat} (positive : 0 < n) (exponent : Nat)
    : n.log2 < exponent ↔ n < twoTo exponent :=
  Nat.log2_lt (Nat.ne_of_gt positive)

/-- A number lies below the power of two after its logarithm. -/
theorem lt_twoTo_log2_succ (n : Nat)
    : n < twoTo (n.log2 + 1) :=
  Nat.lt_log2_self

end Reckoner
