import Reckoner.Proofs.Numbers.Positional
import Reckoner.Proofs.Numbers.Shortest
import Reckoner.Value

/-! Texts of numbers. What is printed for a number is read as the number again, is written in
positions, and has no more digits than it needs for that.
-/

namespace Reckoner
namespace Binary64

open Numeral

variable {negative : Bool} {units : ℕ} {exact : Representable units}

-----------------------------------------------------------------------------------------
-- Finite numbers
-----------------------------------------------------------------------------------------

/-- A finite number is printed as its sign and its shortest decimal. -/
theorem toList_text_finite (negative : Bool) (units : ℕ) (exact : Representable units)
    : (finite negative units exact).text.toList
      = (if negative then ['-'] else []) ++ (shortestDecimal units exact).positional := by
  cases negative
  · simp [text]
  · simp [text, String.toList_append]

/-- The text of a finite number denotes the shortest decimal with the sign of the number. -/
theorem denotes_text_finite (negative : Bool) (units : ℕ) (exact : Representable units)
    : Denotes (finite negative units exact).text.toList
        (.rational negative (shortestDecimal units exact).toRat) := by
  have signed : DenotesSign (if negative then ['-'] else []) negative := by
    cases negative
    · exact .absent
    · exact .minus
  rw [toList_text_finite]
  exact .rational signed (shortestDecimal units exact).denotesMagnitude_positional

/-- A text of a decimal is read as a finite number if its sign is that of the number and its
magnitude is read as the magnitude of the number.
-/
theorem ofText?_eq_finite_iff {text : String} {sign : Bool} {d : Decimal}
    (denotes : Denotes text.toList (.rational sign d.toRat))
    : ofText? text = some (.finite negative units exact)
      ↔ sign = negative ∧ d.nearest false = .finite false units exact := by
  obtain ⟨value, reads, rounds⟩ := ofText?_of_denotes denotes
  obtain rfl : value = d.nearest sign := rounds.unique (d.rounds_nearest sign)
  rw [reads, Option.some.injEq, Decimal.nearest_eq_finite_iff]

/-- A text that is read as the number has no fewer digits than the shortest decimal, and with as
many it is no nearer: its sign is the sign of the number, and its magnitude is a decimal.
-/
theorem IsShortest.beats_text {d : Decimal} {digits digits' : ℕ} {other : String} {sign : Bool}
    {magnitude : ℚ}
    (shortest : IsShortest (.finite false units exact) (exactDecimal units) d digits)
    (denotes : Denotes other.toList (.rational sign magnitude))
    (reads : ofText? other = some (.finite negative units exact))
    (short : HasAtMostDigits magnitude digits')
    : sign = negative ∧ digits ≤ digits'
      ∧ (digits' = digits →
        |d.toRat - (exactDecimal units).toRat| ≤ |magnitude - (exactDecimal units).toRat|) := by
  obtain ⟨candidate, width, rfl⟩ := short
  obtain ⟨same, reads'⟩ := (ofText?_eq_finite_iff denotes).mp reads
  obtain ⟨fewest, nearest⟩ := shortest.beats candidate reads'
  refine ⟨same, fewest.trans width, ?_⟩
  rintro rfl
  exact nearest (le_antisymm width fewest)

-----------------------------------------------------------------------------------------
-- All numbers
-----------------------------------------------------------------------------------------

/-- The text of a number is read as the number again. -/
theorem ofText?_text {number : Binary64} (isNumber : number ≠ nan)
    : ofText? number.text = some number := by
  cases number with
  | finite negative units exact =>
      obtain ⟨digits, shortest⟩ := isShortest_shortestDecimal exact
      exact (ofText?_eq_finite_iff (denotes_text_finite negative units exact)).mpr
        ⟨rfl, shortest.reads⟩
  | infinite negative => cases negative <;> rfl
  | nan => exact absurd rfl isNumber

end Binary64

open Numeral Binary64 in
/-- What is printed for a number is read as the same number, so that no other number is printed so.
For a finite number it is a decimal in positions behind a minus sign or none. No text of a decimal
with fewer significant digits is read as the number, and none with as many is nearer to it.
-/
theorem Value.text_number_reads_back (number : Binary64) (isNumber : number ≠ .nan)
    : ofText? (Value.number number).text = some number
      ∧ (∀ other, other ≠ .nan → (Value.number other).text = (Value.number number).text →
        other = number)
      ∧ ∀ negative value, number.sign? = some negative → number.toRat? = some value →
        ∃ body magnitude digits,
          (Value.number number).text.toList = (if negative then ['-'] else []) ++ body
          ∧ IsPositional body
          ∧ DenotesMagnitude body magnitude
          ∧ HasAtMostDigits magnitude digits
          ∧ ∀ text negative' magnitude' digits',
            Denotes text.toList (.rational negative' magnitude') →
            ofText? text = some number →
            HasAtMostDigits magnitude' digits' →
              digits ≤ digits'
              ∧ (digits' = digits →
                |withSign negative magnitude - value|
                  ≤ |withSign negative' magnitude' - value|) := by
  refine ⟨ofText?_text isNumber, fun other isNumber' same => ?_, ?_⟩
  · have reads : ofText? other.text = ofText? number.text := congrArg ofText? same
    rw [ofText?_text isNumber, ofText?_text isNumber', Option.some.injEq] at reads
    exact reads
  · intro negative value sign finite
    cases number with
    | infinite | nan => cases finite
    | finite negative units exact =>
        obtain rfl := Option.some.inj sign
        obtain rfl := Option.some.inj finite
        obtain ⟨digits, shortest⟩ := isShortest_shortestDecimal exact
        refine ⟨_, _, digits, toList_text_finite _ units exact,
          (shortestDecimal units exact).isPositional_positional,
          (shortestDecimal units exact).denotesMagnitude_positional, shortest.short, ?_⟩
        intro text negative' magnitude' digits' denotes reads short
        obtain ⟨rfl, fewest, nearest⟩ := shortest.beats_text denotes reads short
        refine ⟨fewest, fun same => ?_⟩
        rw [cast_signed, ← withSign_div, abs_withSign_sub, abs_withSign_sub, ← toRat_exactDecimal]
        exact nearest same

open Numeral Binary64 in
/-- Minus a tenth, which is no binary fraction: its exact decimal has 55 digits, and one of them is
printed.
-/
theorem Value.text_number_reads_back_minus_tenth
    : (Value.number (.nearest true unitsInOne 10)).text = "-0.1"
      ∧ ofText? "-0.1" = some (.nearest true unitsInOne 10)
      ∧ ∀ other, other ≠ .nan → (Value.number other).text = "-0.1" →
        other = .nearest true unitsInOne 10 := by
  have text : (Value.number (.nearest true unitsInOne 10)).text = "-0.1" := by decide +kernel
  have isNumber : Binary64.nearest true unitsInOne 10 ≠ .nan := by decide +kernel
  obtain ⟨reads, unique, -⟩ := Value.text_number_reads_back _ isNumber
  rw [text] at reads unique
  exact ⟨text, reads, unique⟩

end Reckoner
