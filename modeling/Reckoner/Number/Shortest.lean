import Reckoner.Number.Decimal

/-! The text of a floating-point number: the fewest digits that read back to it. -/

namespace Reckoner
namespace Binary64

/-- How many decimal places a magnitude needs: as many as halvings make it from a whole
number.
-/
def exactPlaces (units : Nat) : Nat :=
  unitExponent - (units.gcd unitsInOne).log2

/-- The decimal that equals a magnitude exactly: with that many places the division leaves
no remainder.
-/
def exactDecimal (units : Nat) : Decimal :=
  { coefficient := units * tenTo (exactPlaces units) / unitsInOne
    exponent := -exactPlaces units }

/-- Cuts digits off a coefficient: the multiple of `10 ^ dropped` at or below it. -/
def lowerDecimal (exact : Decimal) (dropped : Nat) : Decimal :=
  { coefficient := exact.coefficient / tenTo dropped, exponent := exact.exponent + dropped }

/-- The next decimal above the one with digits cut off, with the same exponent. -/
def upperDecimal (exact : Decimal) (dropped : Nat) : Decimal :=
  { coefficient := exact.coefficient / tenTo dropped + 1
    exponent := exact.exponent + dropped }

/-- The neighbour of an exact decimal, after cutting digits off, that reads back to the given
number: the nearer one if both do, and the upper one if they are equally near.
-/
def neighbour? (number : Binary64) (exact : Decimal) (dropped : Nat) : Option Decimal :=
  let lower := lowerDecimal exact dropped
  let upper := upperDecimal exact dropped
  let rest := exact.coefficient % tenTo dropped
  if lower.nearest false = number then
    if upper.nearest false = number ∧ tenTo dropped ≤ 2 * rest then some upper else some lower
  else if upper.nearest false = number then
    some upper
  else
    none

/-- Tries to cut off the given number of digits, then one less, and so on down to none. -/
def shortestFrom (number : Binary64) (exact : Decimal) : Nat → Decimal
  | 0 => exact
  | dropped + 1 =>
      match neighbour? number exact (dropped + 1) with
      | some found => found
      | none => shortestFrom number exact dropped

/-- A decimal with the fewest digits among those that read back to a magnitude, and nearest
to it among those.
-/
def shortestDecimal (units : Nat) (representable : Representable units) : Decimal :=
  let exact := exactDecimal units
  let digits := (Nat.toDigits 10 exact.coefficient).length
  shortestFrom (.finite false units representable) exact (digits - 1)

/-- The text of a number, always written in positions, with the sign of a zero. -/
def text : Binary64 → String
  | .finite negative units representable =>
      let digits := String.ofList (shortestDecimal units representable).positional
      if negative then "-" ++ digits else digits
  | .infinite negative => if negative then "-inf" else "inf"
  | .nan => "NaN"

end Binary64
end Reckoner
