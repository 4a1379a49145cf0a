import Mathlib.Data.List.TakeWhile
import Reckoner.Number.Numeral
import Reckoner.Number.Shortest

/-! Whole numbers in texts. A whole number is printed as a run of digits, which reads back to
it, however large it is; and what a run of digits reads as is whole, unless it is infinite.
-/

namespace Reckoner

-----------------------------------------------------------------------------------------
-- Rounding what needs no rounding
-----------------------------------------------------------------------------------------

/-- A quotient that leaves no remainder is rounded to itself. -/
theorem roundHalfEven_of_dvd {numerator denominator : Nat} (positive : 0 < denominator)
    (divides : denominator ∣ numerator)
    : roundHalfEven numerator denominator * denominator = numerator := by
  have even : 2 * (numerator % denominator) < denominator := by
    rwa [Nat.mod_eq_zero_of_dvd divides, Nat.mul_zero]
  simp only [roundHalfEven, if_pos even]
  exact Nat.div_mul_cancel divides

namespace Binary64

/-- The units that a quotient by one is rounded to. -/
theorem spacings_one_of_dvd {units : Nat} (exact : twoTo (excessDigits units) ∣ units)
    : spacings units 1 * twoTo (spacingExponent units 1) = units := by
  simp only [spacings, spacingExponent, Nat.div_one, Nat.one_mul]
  exact roundHalfEven_of_dvd (twoTo_pos _) exact

/-- A representable magnitude is its own nearest number. -/
theorem nearest_of_representable (negative : Bool) {units : Nat} (exact : Representable units)
    : nearest negative units 1 = .finite negative units exact := by
  have same := spacings_one_of_dvd exact.2
  simp only [nearest, same, dif_pos exact.1]

/-- A quotient is rounded to a multiple of its spacing or to an infinity. -/
theorem nearest_cases (negative : Bool) (numerator denominator : Nat)
    : (∃ exact,
        nearest negative numerator denominator
          = .finite negative
            (spacings numerator denominator
              * twoTo (spacingExponent numerator denominator))
            exact)
      ∨ nearest negative numerator denominator = .infinite negative := by
  rcases Nat.lt_or_ge
    (spacings numerator denominator * twoTo (spacingExponent numerator denominator))
    magnitudeLimit with small | large
  · refine .inl ⟨⟨small, twoTo_excessDigits_dvd (spacings_le _ _) _⟩, ?_⟩
    rw [nearest, dif_pos small]
  · right
    rw [nearest, dif_neg (Nat.not_lt.mpr large)]

/-- A number is finite if it is no infinity and is a number at all. -/
def IsFinite (number : Binary64) : Prop :=
  ∃ negative units exact, number = .finite negative units exact

/-- A number is whole if it is finite, has no sign and is a multiple of one. -/
def IsWhole (number : Binary64) : Prop :=
  ∃ units exact, number = .finite false units exact ∧ unitsInOne ∣ units

/-- A multiple of one is rounded to a whole number or to an infinity.
Witness: spacings wider than one are multiples of it, and narrower ones need no rounding.
-/
theorem isWhole_nearest {units : Nat} (whole : unitsInOne ∣ units)
    (finite : (nearest false units 1).IsFinite)
    : (nearest false units 1).IsWhole := by
  have divides : unitsInOne ∣ spacings units 1 * twoTo (spacingExponent units 1) := by
    rcases Nat.le_total unitExponent (excessDigits units) with wide | narrow
    · rw [unitsInOne, spacingExponent, Nat.div_one]
      exact Nat.dvd_mul_left_of_dvd (twoTo_dvd_twoTo wide) _
    · have narrower : twoTo (excessDigits units) ∣ unitsInOne := by
        rw [unitsInOne]
        exact twoTo_dvd_twoTo narrow
      rw [spacings_one_of_dvd (Nat.dvd_trans narrower whole)]
      exact whole
  rcases nearest_cases false units 1 with ⟨exact, rounded⟩ | overflow
  · exact ⟨_, exact, rounded, divides⟩
  · obtain ⟨_, _, _, rounded⟩ := finite
    cases overflow.symm.trans rounded

end Binary64

-----------------------------------------------------------------------------------------
-- Reading digits
-----------------------------------------------------------------------------------------

/-- The whole number that a run of digits spells. -/
def Decimal.ofDigits (digits : List Char) : Decimal :=
  { coefficient := Nat.ofDigitChars 10 digits 0, exponent := 0 }

namespace Numeral

/-- Digits with nothing before, among or behind them are read as a whole number. -/
theorem readDecimal_of_digits {digits : List Char} (nonempty : digits ≠ [])
    (all : ∀ c ∈ digits, c.isDigit)
    : readDecimal digits = some (Decimal.ofDigits digits) := by
  have taken : digits.takeWhile Char.isDigit = digits :=
    List.takeWhile_eq_self_iff.mpr all
  have dropped : digits.dropWhile Char.isDigit = [] :=
    List.dropWhile_eq_nil_iff.mpr all
  simp only [readDecimal, taken, dropped, splitFraction, List.append_nil,
    List.isEmpty_iff, nonempty, if_false, readExponent, Option.map_some]
  rfl

theorem toLower_of_isDigit {c : Char} (digit : c.isDigit)
    : c.toLower = c := by
  simp only [Char.isDigit, ge_iff_le, Bool.and_eq_true, decide_eq_true_eq] at digit
  have apart : ¬ 'A'.val ≤ '9'.val := by decide
  exact dif_neg fun upper => apart (UInt32.le_trans upper.1 digit.2)

/-- A text that begins with a digit has no sign and is no word. -/
theorem read?_of_digit {first : Char} {rest : List Char} (digit : first.isDigit)
    : read? (first :: rest) = (readDecimal (first :: rest)).map (.decimal false) := by
  have unsigned : splitSign (first :: rest) = (false, first :: rest) := by
    unfold splitSign
    split
    · next same =>
        obtain ⟨rfl, rfl⟩ := List.cons.inj same
        cases digit
    · next same =>
        obtain ⟨rfl, rfl⟩ := List.cons.inj same
        cases digit
    · rfl
  have apart (letter : Char) (second : List Char) (other : letter.isDigit = false)
      : (List.map Char.toLower (first :: rest) == letter :: second) = false := by
    rw [List.map_cons, toLower_of_isDigit digit, List.cons_beq_cons, Bool.and_eq_false_iff]
    refine .inl (beq_eq_false_iff_ne.mpr ?_)
    intro same
    rw [same, other] at digit
    cases digit
  have noInf : isWord "inf" (first :: rest) = false := apart 'i' _ (by decide)
  have noInfinity : isWord "infinity" (first :: rest) = false := apart 'i' _ (by decide)
  have noNan : isWord "nan" (first :: rest) = false := apart 'n' _ (by decide)
  simp only [read?, unsigned, noInf, noInfinity, noNan, Bool.or_self, Bool.false_eq_true,
    if_false]

end Numeral

/-- A run of digits is read as the number nearest to what it spells. -/
theorem Binary64.ofText?_of_digits {digits : List Char} (nonempty : digits ≠ [])
    (all : ∀ c ∈ digits, c.isDigit)
    : ofText? (String.ofList digits) = some ((Decimal.ofDigits digits).nearest false) := by
  cases digits with
  | nil => exact absurd rfl nonempty
  | cons first rest =>
      rw [ofText?, String.toList_ofList, Numeral.read?_of_digit (all first List.mem_cons_self),
        Numeral.readDecimal_of_digits nonempty all]
      rfl

namespace Decimal

/-- Without decimal places and up to the largest powers of ten, the nearest number is found by
rounding a multiple of one.
-/
theorem nearest_of_low {d : Decimal} (low : 0 ≤ d.exponent)
    (high : d.coefficient = 0 ∨ d.exponent < 309)
    : d.nearest false
      = .nearest false (d.coefficient * tenTo d.exponent.toNat * unitsInOne) 1 := by
  have places : (-d.exponent).toNat = 0 := by omega
  have one : tenTo 0 = 1 := rfl
  have order : ¬ d.order ≤ -324 := by
    simp only [order]
    omega
  by_cases zero : d.coefficient = 0
  · simp only [nearest, zero, Nat.zero_mul, if_true]
    exact (Binary64.nearest_of_representable false representable_zero).symm
  · have below := Int.not_le.mpr (high.resolve_left zero)
    rw [nearest, if_neg zero, if_neg below, if_neg order, places, one]

/-- The number nearest to a natural number is found by rounding a multiple of one. -/
theorem nearest_natural (n : Nat)
    : nearest false { coefficient := n, exponent := 0 } = .nearest false (n * unitsInOne) 1 := by
  have one : tenTo 0 = 1 := rfl
  have high : (0 : Int) < 309 := by decide
  rw [nearest_of_low (Int.le_refl 0) (.inr high), Int.toNat_zero, one, Nat.mul_one]

/-- A decimal that is not zero is infinite from the largest powers of ten on. -/
theorem exponent_lt_of_isFinite {d : Decimal} (finite : (d.nearest false).IsFinite)
    : d.coefficient = 0 ∨ d.exponent < 309 := by
  by_contra large
  rw [not_or, Int.not_lt] at large
  obtain ⟨_, _, _, rounded⟩ := finite
  rw [nearest, if_neg large.1, if_pos large.2] at rounded
  cases rounded

/-- What digits spell is whole, unless it is infinite. -/
theorem isWhole_ofDigits {digits : List Char}
    (finite : ((ofDigits digits).nearest false).IsFinite)
    : ((ofDigits digits).nearest false).IsWhole := by
  rw [ofDigits, nearest_natural] at finite ⊢
  exact Binary64.isWhole_nearest (Nat.dvd_mul_left _ _) finite

/-- Without decimal places, the text of a decimal is the digits of a natural number. -/
theorem positional_of_nonneg {d : Decimal} (low : 0 ≤ d.exponent)
    : d.positional = Nat.toDigits 10 (d.coefficient * tenTo d.exponent.toNat) := by
  have places : (-d.exponent).toNat = 0 := by omega
  have one : tenTo 0 = 1 := rfl
  have fraction : fractionDigits 0 d.coefficient = [] := by
    rw [fractionDigits, one, Nat.mod_one]
    rfl
  rw [positional, places, one, Nat.div_one, fraction]

/-- Without decimal places, the text of a decimal is read as the number it is nearest to. -/
theorem nearest_ofDigits_positional {d : Decimal} (low : 0 ≤ d.exponent)
    (finite : (d.nearest false).IsFinite)
    : (ofDigits d.positional).nearest false = d.nearest false := by
  have spelled : ofDigits d.positional
      = { coefficient := d.coefficient * tenTo d.exponent.toNat, exponent := 0 } := by
    rw [positional_of_nonneg low, ofDigits, Nat.ofDigitChars_ten_toDigits]
  rw [spelled, nearest_natural, nearest_of_low low (exponent_lt_of_isFinite finite)]

end Decimal

-----------------------------------------------------------------------------------------
-- Printing whole numbers
-----------------------------------------------------------------------------------------

namespace Binary64

/-- A decimal without decimal places that is read as the given number. -/
structure SpelledBy (number : Binary64) (d : Decimal) : Prop where
  low : 0 ≤ d.exponent
  reads : d.nearest false = number

theorem spelledBy_of_neighbour? {number : Binary64} {exact found : Decimal} {dropped : Nat}
    (low : 0 ≤ exact.exponent) (neighbour : neighbour? number exact dropped = some found)
    : number.SpelledBy found := by
  have later : 0 ≤ exact.exponent + dropped := by omega
  simp only [neighbour?] at neighbour
  split at neighbour
  · next lower =>
      split at neighbour
      · next upper =>
          cases neighbour
          exact ⟨later, upper.1⟩
      · cases neighbour
        exact ⟨later, lower⟩
  · split at neighbour
    · next upper =>
        cases neighbour
        exact ⟨later, upper⟩
    · cases neighbour

/-- Cutting digits off keeps a decimal that spells the number, by induction on the digits to
cut: only a neighbour that is read as the number is taken.
-/
theorem spelledBy_shortestFrom {number : Binary64} {exact : Decimal}
    (spelled : number.SpelledBy exact) (dropped : Nat)
    : number.SpelledBy (shortestFrom number exact dropped) := by
  induction dropped with
  | zero => exact spelled
  | succ dropped ih =>
      rw [shortestFrom]
      split
      · next neighbour => exact spelledBy_of_neighbour? spelled.low neighbour
      · exact ih

/-- The exact decimal of a whole number has no decimal places. -/
theorem exactDecimal_of_dvd {units : Nat} (whole : unitsInOne ∣ units)
    : exactDecimal units = { coefficient := units / unitsInOne, exponent := 0 } := by
  have places : exactPlaces units = 0 := by
    rw [exactPlaces, Nat.gcd_eq_right whole, unitsInOne, log2_twoTo, Nat.sub_self]
  have one : tenTo 0 = 1 := rfl
  rw [exactDecimal, places, one, Nat.mul_one]
  rfl

theorem spelledBy_shortestDecimal {units : Nat} (exact : Representable units)
    (whole : unitsInOne ∣ units)
    : SpelledBy (.finite false units exact) (shortestDecimal units exact) := by
  apply spelledBy_shortestFrom
  rw [exactDecimal_of_dvd whole]
  refine ⟨Int.le_refl 0, ?_⟩
  rw [Decimal.nearest_natural]
  simp only [Nat.div_mul_cancel whole]
  exact nearest_of_representable false exact

/-- The text of a whole number is a run of digits, which is read as the number again: its
shortest decimal has no decimal places and was chosen for being read as the number.
-/
theorem IsWhole.text {number : Binary64} (whole : number.IsWhole)
    : number.text.toList ≠ []
      ∧ (∀ c ∈ number.text.toList, c.isDigit)
      ∧ ofText? number.text = some number := by
  obtain ⟨units, exact, rfl, divides⟩ := whole
  have spelled := spelledBy_shortestDecimal exact divides
  have digits := Decimal.positional_of_nonneg spelled.low
  have finite : ((shortestDecimal units exact).nearest false).IsFinite :=
    ⟨false, units, exact, spelled.reads⟩
  have nonempty : (shortestDecimal units exact).positional ≠ [] := by
    rw [digits]
    exact Nat.toDigits_ne_nil
  have all : ∀ c ∈ (shortestDecimal units exact).positional, c.isDigit := by
    intro c member
    rw [digits] at member
    exact Nat.isDigit_of_mem_toDigits (by decide) (by decide) member
  simp only [Binary64.text, Bool.false_eq_true, if_false, String.toList_ofList]
  refine ⟨nonempty, all, ?_⟩
  rw [ofText?_of_digits nonempty all, Decimal.nearest_ofDigits_positional spelled.low finite,
    spelled.reads]

/-- What a run of digits is read as is whole, unless it is infinite. -/
theorem isWhole_of_ofText? {digits : List Char} {number : Binary64} (nonempty : digits ≠ [])
    (all : ∀ c ∈ digits, c.isDigit)
    (reads : ofText? (String.ofList digits) = some number) (finite : number.IsFinite)
    : number.IsWhole := by
  rw [ofText?_of_digits nonempty all, Option.some.injEq] at reads
  rw [← reads] at finite ⊢
  exact Decimal.isWhole_ofDigits finite

end Binary64
end Reckoner
