import Reckoner.Number.Decimal

/-! Texts of numbers: an optional sign, then a word or a decimal with an optional fraction
and an optional power of ten. -/

namespace Reckoner

/-- What the text of a number says, before any rounding. -/
inductive Numeral
  | decimal (negative : Bool) (magnitude : Decimal)
  | infinite (negative : Bool)
  | nan
  deriving DecidableEq

namespace Numeral

/-- The sign that a text begins with, plus unless it says otherwise, and the text behind it. -/
def splitSign : List Char → Bool × List Char
  | '-' :: rest => (true, rest)
  | '+' :: rest => (false, rest)
  | text => (false, text)

/-- Reads what may follow the digits of a coefficient: nothing, or the letter e in either
case and a whole power of ten.
-/
def readExponent : List Char → Option Int
  | [] => some 0
  | mark :: rest =>
      let (negative, digits) := splitSign rest
      if (mark == 'e' || mark == 'E') && !digits.isEmpty && digits.all Char.isDigit then
        let power := Nat.ofDigitChars 10 digits 0
        some (if negative then -power else power)
      else
        none

/-- Splits the fraction off the text behind an integer part: the digits after a point. -/
def splitFraction : List Char → List Char × List Char
  | '.' :: rest => (rest.takeWhile Char.isDigit, rest.dropWhile Char.isDigit)
  | text => ([], text)

/-- Reads an unsigned decimal: digits with an optional point among, before or after them,
and an optional power of ten.
-/
def readDecimal (text : List Char) : Option Decimal :=
  let whole := text.takeWhile Char.isDigit
  let (fraction, rest) := splitFraction (text.dropWhile Char.isDigit)
  if (whole ++ fraction).isEmpty then
    none
  else
    (readExponent rest).map fun exponent =>
      { coefficient := Nat.ofDigitChars 10 (whole ++ fraction) 0
        exponent := exponent - fraction.length }

/-- Whether a text is the given word, in any mix of ASCII cases. -/
def isWord (word : String) (text : List Char) : Bool :=
  text.map Char.toLower == word.toList

/-- Reads the text of a number, or nothing if it is not one. -/
def read? (text : List Char) : Option Numeral :=
  let (negative, body) := splitSign text
  if isWord "inf" body || isWord "infinity" body then
    some (.infinite negative)
  else if isWord "nan" body then
    some .nan
  else
    (readDecimal body).map (.decimal negative)

/-- The floating-point number nearest to what the text says. -/
def toBinary64 : Numeral → Binary64
  | .decimal negative magnitude => magnitude.nearest negative
  | .infinite negative => .infinite negative
  | .nan => .nan

end Numeral

/-- Reads the text of a number as a floating-point number. -/
def Binary64.ofText? (text : String) : Option Binary64 :=
  (Numeral.read? text.toList).map Numeral.toBinary64

end Reckoner
