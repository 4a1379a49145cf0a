import Reckoner.Number.Binary64
import Reckoner.Text.Trailing

/-! Decimal magnitudes: the numbers nearest to them, and their positional texts. -/

namespace Reckoner

/-- The magnitude `coefficient * 10 ^ exponent`. -/
structure Decimal where
  coefficient : Nat
  exponent : Int
  deriving DecidableEq, Repr

namespace Decimal

/-- A magnitude other than zero lies below ten to the power of its order. The order is read
off the binary logarithm, so it may be larger than the number of digits asks for.
-/
def order (d : Decimal) : Int :=
  (d.coefficient.log2 / 3 + 1 : Nat) + d.exponent

/-- The floating-point number nearest to a decimal magnitude, ties to even. From `10 ^ 309`
on it is infinite, and below `10 ^ -324`, which is less than half the least positive number,
it is zero; in between the power of ten is written out and the quotient rounded once.
-/
def nearest (negative : Bool) (d : Decimal) : Binary64 :=
  if d.coefficient = 0 then
    .signedZero negative
  else if 309 ≤ d.exponent then
    .infinite negative
  else if d.order ≤ -324 then
    .signedZero negative
  else
    .nearest negative (d.coefficient * tenTo d.exponent.toNat * unitsInOne)
      (tenTo (-d.exponent).toNat)

/-- The digits of a number, with zeros in front up to the given width. -/
def paddedDigits (width n : Nat) : List Char :=
  let digits := Nat.toDigits 10 n
  List.replicate (width - digits.length) '0' ++ digits

/-- The digits after the point: those of the remainder by `10 ^ places`, without zeros at
their end.
-/
def fractionDigits (places coefficient : Nat) : List Char :=
  Text.dropTrailing (· == '0') (paddedDigits places (coefficient % tenTo places))

/-- Writes a magnitude in positions, whatever its size: an integer part, and a point and a
fraction if there are digits for one.
-/
def positional (d : Decimal) : List Char :=
  let places := (-d.exponent).toNat
  let whole := Nat.toDigits 10 (d.coefficient * tenTo d.exponent.toNat / tenTo places)
  match fractionDigits places d.coefficient with
  | [] => whole
  | fraction => whole ++ '.' :: fraction

end Decimal
end Reckoner
