import Mathlib.Data.List.DropRight
import Reckoner.Proofs.Numbers.Reading

/-! Texts of decimals in positions. They denote the decimals, however large or small these are, and
they have neither a zero too many in front nor a zero at the end of a fraction.
-/

namespace Reckoner
namespace Numeral

-----------------------------------------------------------------------------------------
-- Texts in positions
-----------------------------------------------------------------------------------------

/-- Digits of a natural number without superfluous zeros in front. -/
structure IsCanonical (digits : List Char) : Prop where
  nonempty : digits ≠ []
  all : ∀ c ∈ digits, c.isDigit
  front : digits.head? = some '0' → digits = ['0']

/-- An integer part, and a point and a fraction if there is one, which does not end in a zero. -/
inductive IsPositional : List Char → Prop
  | whole {digits : List Char} (canonical : IsCanonical digits) : IsPositional digits
  | pointed {digits fraction : List Char} (canonical : IsCanonical digits)
    (nonempty : fraction ≠ []) (all : ∀ c ∈ fraction, c.isDigit)
    (last : fraction.getLast? ≠ some '0')
    : IsPositional (digits ++ '.' :: fraction)

/-- The digits of a number begin with a zero only if it is zero, by induction on the quotient by
ten, whose digits come first.
-/
theorem eq_zero_of_head?_toDigits {n : ℕ} (front : (Nat.toDigits 10 n).head? = some '0')
    : n = 0 := by
  induction n using Nat.strongRecOn with
  | ind n ih =>
      rcases Nat.lt_or_ge n 10 with small | large
      · rw [Nat.toDigits_of_lt_base small, List.head?_cons, Option.some.injEq] at front
        exact Nat.digitChar_eq_zero.mp front
      · rw [Nat.toDigits_of_base_le (by decide) large,
          List.head?_append_of_ne_nil _ Nat.toDigits_ne_nil] at front
        have quotient := ih (n / 10) (by omega) front
        omega

theorem isCanonical_toDigits (n : ℕ)
    : IsCanonical (Nat.toDigits 10 n) := by
  refine ⟨Nat.toDigits_ne_nil, fun c member => ?_, fun front => ?_⟩
  · exact Nat.isDigit_of_mem_toDigits (by decide) (by decide) member
  · rw [eq_zero_of_head?_toDigits front]
    rfl

-----------------------------------------------------------------------------------------
-- Fractions
-----------------------------------------------------------------------------------------

/-- The part of one that digits behind a point denote. -/
def fractionOf (digits : List Char) : ℚ :=
  natural digits / 10 ^ digits.length

/-- Zeros at the end of a fraction change nothing. -/
theorem fractionOf_append_zeros (digits : List Char) (zeros : ℕ)
    : fractionOf (digits ++ List.replicate zeros '0') = fractionOf digits := by
  have ten : (10 : ℚ) ^ zeros ≠ 0 := by positivity
  rw [fractionOf, fractionOf, natural, Nat.ofDigitChars_append,
    Nat.ofDigitChars_replicate_zero, List.length_append, List.length_replicate, pow_add]
  push_cast
  rw [mul_comm ((10 : ℚ) ^ zeros), mul_div_mul_right _ _ ten, natural]

end Numeral

namespace Decimal

open Numeral

/-- What is dropped from the end of a fraction are zeros, and no zero is left there. -/
theorem exists_dropTrailing_append (digits : List Char)
    : (Text.dropTrailing (· == '0') digits).getLast? ≠ some '0'
      ∧ ∃ zeros, Text.dropTrailing (· == '0') digits ++ List.replicate zeros '0' = digits := by
  have same : Text.dropTrailing (· == '0') digits = digits.rdropWhile (· == '0') := rfl
  rw [same]
  constructor
  · intro last
    obtain ⟨front, joined⟩ := List.getLast?_eq_some_iff.mp last
    have nonempty : digits.rdropWhile (· == '0') ≠ [] := by simp [joined]
    have nonzero := List.rdropWhile_last_not (· == '0') digits nonempty
    simp [joined] at nonzero
  · have zeros : ∀ c ∈ digits.rtakeWhile (· == '0'), c = '0' := by
      intro c member
      simpa using List.mem_rtakeWhile_imp member
    refine ⟨(digits.rtakeWhile (· == '0')).length, ?_⟩
    rw [← List.eq_replicate_of_mem zeros, List.rdropWhile_append_rtakeWhile]

theorem isDigit_of_mem_paddedDigits {width n : ℕ} {c : Char} (member : c ∈ paddedDigits width n)
    : c.isDigit := by
  rcases List.mem_append.mp member with zero | digit
  · rw [List.eq_of_mem_replicate zero]
    rfl
  · exact (isCanonical_toDigits n).all c digit

/-- A numerator is padded to as many digits as its denominator has zeros. -/
theorem fractionOf_paddedDigits {width n : ℕ} (small : n < tenTo width)
    : fractionOf (paddedDigits width n) = n / 10 ^ width := by
  have same : natural (paddedDigits width n) = n := by
    simp only [natural, paddedDigits, Nat.ofDigitChars_append, Nat.ofDigitChars_replicate_zero,
      Nat.mul_zero, Nat.ofDigitChars_ten_toDigits]
  rw [fractionOf, same]
  rcases Nat.eq_zero_or_pos width with rfl | positive
  · obtain rfl : n = 0 := Nat.lt_one_iff.mp small
    simp
  · have short : (Nat.toDigits 10 n).length ≤ width :=
      (Nat.length_toDigits_le_iff (by decide) positive).mpr small
    have length : (paddedDigits width n).length = width := by
      simp only [paddedDigits, List.length_append, List.length_replicate]
      omega
    rw [length]

/-- The digits behind the point denote the remainder by the power of ten. -/
theorem fractionOf_fractionDigits (places coefficient : ℕ)
    : fractionOf (fractionDigits places coefficient)
      = (coefficient % tenTo places : ℕ) / 10 ^ places := by
  have below : coefficient % tenTo places < tenTo places := Nat.mod_lt _ (tenTo_pos places)
  obtain ⟨-, zeros, joined⟩ :=
    exists_dropTrailing_append (paddedDigits places (coefficient % tenTo places))
  rw [← fractionOf_paddedDigits below, ← joined, fractionOf_append_zeros]
  rfl

theorem isDigit_of_mem_fractionDigits {places coefficient : ℕ}
    : ∀ c ∈ fractionDigits places coefficient, c.isDigit := by
  intro c member
  obtain ⟨-, zeros, joined⟩ :=
    exists_dropTrailing_append (paddedDigits places (coefficient % tenTo places))
  apply isDigit_of_mem_paddedDigits
  rw [← joined]
  exact List.mem_append_left _ member

-----------------------------------------------------------------------------------------
-- Decimals
-----------------------------------------------------------------------------------------

/-- The digits before the point denote the quotient by the power of ten. -/
def integerPart (d : Decimal) : ℕ :=
  d.coefficient * tenTo d.exponent.toNat / tenTo (-d.exponent).toNat

/-- The digits behind the point. -/
def fraction (d : Decimal) : List Char :=
  fractionDigits (-d.exponent).toNat d.coefficient

/-- A decimal is its integer part and its fraction. It has decimal places only if its power of ten
is below one, so that the remainder is that of the coefficient.
-/
theorem toRat_eq_add (d : Decimal)
    : d.toRat = d.integerPart + fractionOf d.fraction := by
  have positive : (0 : ℚ) < (tenTo (-d.exponent).toNat : ℕ) := Nat.cast_pos.mpr (tenTo_pos _)
  have same : d.coefficient * tenTo d.exponent.toNat % tenTo (-d.exponent).toNat
      = d.coefficient % tenTo (-d.exponent).toNat := by
    obtain ⟨n, whole | places⟩ := d.exponent.eq_nat_or_neg
    · simp [whole, tenTo, Nat.mod_one]
    · simp [places, tenTo]
  have split := Nat.mod_add_div (d.coefficient * tenTo d.exponent.toNat) (tenTo (-d.exponent).toNat)
  rw [same] at split
  calc d.toRat
      = (d.coefficient * tenTo d.exponent.toNat : ℕ) / (tenTo (-d.exponent).toNat : ℕ) :=
        d.toRat_eq_div
    _ = (d.coefficient % tenTo (-d.exponent).toNat : ℕ) / (tenTo (-d.exponent).toNat : ℕ)
          + d.integerPart := by
        rw [← split, Nat.cast_add, Nat.cast_mul, add_div, mul_div_cancel_left₀ _ positive.ne',
          integerPart]
    _ = d.integerPart + fractionOf d.fraction := by
        rw [cast_tenTo, ← fractionOf_fractionDigits, add_comm, fraction]

/-- The text of a decimal is its integer part alone if no digits are left for a fraction. -/
theorem positional_cases (d : Decimal)
    : (d.fraction = [] ∧ d.positional = Nat.toDigits 10 d.integerPart)
      ∨ d.fraction ≠ [] ∧ d.positional = Nat.toDigits 10 d.integerPart ++ '.' :: d.fraction := by
  rw [positional]
  split
  · next none => exact .inl ⟨none, rfl⟩
  · next some => exact .inr ⟨some, rfl⟩

theorem isPositional_positional (d : Decimal)
    : IsPositional d.positional := by
  rcases d.positional_cases with ⟨-, same⟩ | ⟨nonempty, same⟩
  · rw [same]
    exact .whole (isCanonical_toDigits _)
  · rw [same]
    exact .pointed (isCanonical_toDigits _) nonempty isDigit_of_mem_fractionDigits
      (exists_dropTrailing_append _).1

/-- The text of a decimal denotes it. -/
theorem denotesMagnitude_positional (d : Decimal)
    : DenotesMagnitude d.positional d.toRat := by
  have all := (isCanonical_toDigits d.integerPart).all
  have whole : natural (Nat.toDigits 10 d.integerPart) = d.integerPart :=
    Nat.ofDigitChars_ten_toDigits
  rw [toRat_eq_add]
  rcases d.positional_cases with ⟨none, same⟩ | ⟨nonempty, same⟩
  · have denotes := DenotesMagnitude.whole Nat.toDigits_ne_nil all .absent
    rw [same, none]
    simpa [fractionOf, natural] using denotes
  · have denotes := DenotesMagnitude.pointed (List.append_ne_nil_of_right_ne_nil _ nonempty)
      (List.forall_mem_append.mpr ⟨all, isDigit_of_mem_fractionDigits⟩) .absent
    rw [same]
    simpa [fractionOf, whole] using denotes

end Decimal
end Reckoner
