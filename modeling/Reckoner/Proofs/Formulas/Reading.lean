import Reckoner.Proofs.Formulas.Value
import Reckoner.Proofs.Printing.RoundTrip
import Reckoner.Proofs.Sessions.Joining

/-! Formulas of integers as sources. With parentheses around each operand that has an operator, a
formula is read as its own tree, so that a session runs it to its exact value.
-/

namespace Reckoner
namespace Formula

/-- Whether a formula has an operator at its root. -/
def isBinary : Formula → Bool
  | literal _ => false
  | binary .. => true

/-- The source of a formula, with parentheses around each operand that has an operator. -/
def source : Formula → String
  | literal n => n.repr
  | binary left op right =>
      parenthesize left.isBinary left.source ++ " " ++ op.toOperator.symbol ++ " "
        ++ parenthesize right.isBinary right.source

/-- How many parentheses the source of a formula opens at once. -/
def nesting : Formula → Nat
  | literal _ => 0
  | binary left _ right =>
      max (left.nesting + left.isBinary.toNat) (right.nesting + right.isBinary.toNat)

theorem mapLines_expr (formula : Formula)
    : formula.expr.mapLines (fun _ => 1) = formula.expr := by
  induction formula with
  | literal n => rfl
  | binary left op right leftIH rightIH => rw [expr, Expr.mapLines, leftIH, rightIH]

theorem writes_literal (n : ℕ)
    : Level.operand.Writes (literal n).source.toList (literal n).expr 0 := by
  have nonempty : Nat.toDigits 10 n ≠ [] := Nat.toDigits_ne_nil
  have all : ∀ c ∈ Nat.toDigits 10 n, c.isDigit := fun c member =>
    Nat.isDigit_of_mem_toDigits (by decide) (by decide) member
  have spelled : TokenKind.number.IsSpelledBy n.repr.toList := by
    rw [Nat.toList_repr]
    exact ⟨nonempty, all⟩
  refine .numeral spelled ?_ 1
  rw [Nat.repr_eq_ofList_toDigits]
  exact Binary64.ofText?_of_digits nonempty all

/-- A formula with an operator stands in parentheses as an operand. -/
theorem writes_operand {formula : Formula}
    (writes : (Level.chain .additive).Writes formula.source.toList formula.expr formula.nesting)
    : Level.operand.Writes (parenthesize formula.isBinary formula.source).toList formula.expr
        (formula.nesting + formula.isBinary.toNat) := by
  cases formula with
  | literal n => exact writes_literal n
  | binary left op right => simpa [parenthesize, isBinary] using writes.group

/-- The source of a formula is read as its tree, by induction on the formula. -/
theorem writes_source (formula : Formula)
    : (Level.chain .additive).Writes formula.source.toList formula.expr formula.nesting := by
  induction formula with
  | literal n => exact (writes_literal n).of_operand
  | binary left op right leftIH rightIH =>
      have before : (Level.chain op.toOperator.tier).Writes _ _ _ :=
        (writes_operand leftIH).of_operand
      have joined := before.joined 1 (writes_operand rightIH).of_operand
      simpa [source, expr, nesting, Operator.toList_symbol] using joined.additive

end Formula

/-- A session runs a formula of integers within the precision exactly. It comes to the number that
is the exact value, if there is one; there is none where a divisor is zero, and only then the
session refuses to divide.
-/
theorem Session.run_formula (session : Session) (formula : Formula) (small : formula.IsSmall)
    (within : mostOpen 0 formula.source.toList ≤ maxOpenGroups)
    : (∀ v, formula.value? = some v →
        ∃ number, (session.run formula.source).result = .ok (.number number)
          ∧ number.toRat? = some (v : ℚ))
      ∧ (formula.value? = none →
        (session.run formula.source).result = .error (.runtime (.divisionByZero 1)))
      ∧ (formula.value? = none
        ↔ ∃ dividend divisor, .binary dividend .rem divisor ∈ formula.subformulas
          ∧ divisor.value? = some 0)
      ∧ (session.run formula.source).session = session := by
  have writes := formula.writes_source
  rw [writes.nests.mostOpen_eq] at within
  have parsed := writes.ofSource within
  rw [formula.mapLines_expr] at parsed
  obtain ⟨result, after⟩ := run_of_ofSource_expression parsed session
  have outcome := formula.isOutcome_denote small session.environment
  refine ⟨?_, ?_, Formula.value?_eq_none_iff, after⟩
  · intro v value
    rw [value] at outcome
    obtain ⟨number, denotes, isInteger⟩ := outcome
    exact ⟨number, by rw [result, denotes]; rfl, isInteger⟩
  · intro none
    rw [none] at outcome
    have refused : formula.expr.denote session.environment = .error (.divisionByZero 1) := outcome
    rw [result, refused]
    rfl

/-- A negative dividend leaves a negative remainder, and a difference that is zero is no divisor.
-/
theorem Session.run_formula_remainders
    : let remainder : Formula := .binary (.binary (.literal 1) .sub (.literal 8)) .rem (.literal 4)
      let indivisible : Formula :=
        .binary (.literal 5) .rem (.binary (.literal 2) .sub (.literal 2))
      remainder.source = "(1 - 8) % 4"
      ∧ (∃ number, (fresh.run remainder.source).result = .ok (.number number)
        ∧ number.toRat? = some ((-3 : ℤ) : ℚ))
      ∧ indivisible.source = "5 % (2 - 2)"
      ∧ (fresh.run indivisible.source).result = .error (.runtime (.divisionByZero 1)) := by
  intro remainder indivisible
  have small : remainder.IsSmall := by
    unfold Formula.IsSmall
    decide
  have small' : indivisible.IsSmall := by
    unfold Formula.IsSmall
    decide
  obtain ⟨succeeds, -⟩ := fresh.run_formula remainder small (by decide)
  obtain ⟨-, fails, -⟩ := fresh.run_formula indivisible small' (by decide)
  exact ⟨by decide, succeeds (-3) (by decide), by decide, fails (by decide)⟩

end Reckoner
