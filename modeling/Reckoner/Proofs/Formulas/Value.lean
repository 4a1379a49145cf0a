import Reckoner.Expr.Evaluate
import Reckoner.Proofs.Numbers.Integers

/-! Formulas of integers. Their exact values are those of the integers, and as long as none of the
integers that come up has more digits than the precision, the evaluation comes to the same value,
or to the error of a zero divisor where there is none.
-/

namespace Reckoner

/-- The operators that come to integers on integers. -/
inductive IntegerOperator
  | add
  | sub
  | mul
  | rem
  deriving DecidableEq

namespace IntegerOperator

/-- The operator of expressions. -/
def toOperator : IntegerOperator → Operator
  | add => .add
  | sub => .sub
  | mul => .mul
  | rem => .rem

/-- The exact result. The remainder is that of the division truncated toward zero, which has the
sign of the dividend, and there is none by zero.
-/
def result? : IntegerOperator → ℤ → ℤ → Option ℤ
  | add, v, w => some (v + w)
  | sub, v, w => some (v - w)
  | mul, v, w => some (v * w)
  | rem, v, w => if w = 0 then none else some (v.tmod w)

theorem result?_eq_none_iff {op : IntegerOperator} {v w : ℤ}
    : op.result? v w = none ↔ op = .rem ∧ w = 0 := by
  cases op <;> simp [result?]

variable {a b : Binary64} {v w result : ℤ}

/-- An operator computes its exact result, if this is within the precision. -/
theorem compute_of_exact {op : IntegerOperator} (left : a.IsInteger v) (right : b.IsInteger w)
    (exact : op.result? v w = some result) (small : result.natAbs ≤ twoTo precision) (line : ℕ)
    : ∃ number, op.toOperator.compute a b line = .ok number ∧ number.IsInteger result := by
  cases op with
  | add =>
      cases exact
      exact ⟨_, rfl, left.add right small⟩
  | sub =>
      cases exact
      exact ⟨_, rfl, left.sub right small⟩
  | mul =>
      cases exact
      exact ⟨_, rfl, left.mul right small⟩
  | rem =>
      simp only [result?, Option.ite_none_left_eq_some, Option.some.injEq] at exact
      obtain ⟨nonzero, rfl⟩ := exact
      refine ⟨_, ?_, left.rem right nonzero⟩
      rw [toOperator, Operator.compute, if_neg (right.isZero_iff.not.mpr nonzero)]

theorem compute_of_zero {op : IntegerOperator} (right : b.IsInteger w)
    (zero : op.result? v w = none) (line : ℕ)
    : op.toOperator.compute a b line = .error (.divisionByZero line) := by
  obtain ⟨rfl, rfl⟩ := result?_eq_none_iff.mp zero
  rw [toOperator, Operator.compute, if_pos (right.isZero_iff.mpr rfl)]

end IntegerOperator

/-- Natural numbers with operators between them. -/
inductive Formula
  | literal (n : ℕ)
  | binary (left : Formula) (op : IntegerOperator) (right : Formula)

namespace Formula

/-- The exact value, if there is one: a remainder by zero has none, and what contains it has none
either.
-/
def value? : Formula → Option ℤ
  | literal n => some n
  | binary left op right => do op.result? (← left.value?) (← right.value?)

/-- The formulas that a formula consists of, itself included. -/
def subformulas : Formula → List Formula
  | literal n => [literal n]
  | binary left op right => binary left op right :: (left.subformulas ++ right.subformulas)

/-- All integers that come up in a formula are within the precision. -/
def IsSmall (formula : Formula) : Prop :=
  ∀ sub ∈ formula.subformulas, ∀ v ∈ sub.value?, v.natAbs ≤ 2 ^ 53

/-- The tree of a formula on the first line. -/
def expr : Formula → Expr
  | literal n => .number ((Decimal.ofDigits (Nat.toDigits 10 n)).nearest false) 1
  | binary left op right => .binary left.expr op.toOperator right.expr 1

variable {left right : Formula} {op : IntegerOperator}

theorem mem_subformulas (formula : Formula)
    : formula ∈ formula.subformulas := by
  cases formula <;> exact List.mem_cons_self

theorem IsSmall.of_left (small : (binary left op right).IsSmall)
    : left.IsSmall :=
  fun sub member => small sub (.tail _ (List.mem_append_left _ member))

theorem IsSmall.of_right (small : (binary left op right).IsSmall)
    : right.IsSmall :=
  fun sub member => small sub (.tail _ (List.mem_append_right _ member))

-----------------------------------------------------------------------------------------
-- Zero divisors
-----------------------------------------------------------------------------------------

/-- A formula has no value if a part of it has none, by induction on the formula. -/
theorem value?_eq_none_of_mem {formula sub : Formula} (member : sub ∈ formula.subformulas)
    (none : sub.value? = none)
    : formula.value? = .none := by
  induction formula with
  | literal n =>
      obtain rfl := List.mem_singleton.mp member
      exact none
  | binary left op right leftIH rightIH =>
      rw [subformulas, List.mem_cons, List.mem_append] at member
      rcases member with rfl | member | member
      · exact none
      · rw [value?, leftIH member]
        rfl
      · rw [value?, rightIH member]
        cases left.value? <;> rfl

/-- The only formulas without a value are those in which a divisor is zero. -/
theorem value?_eq_none_iff {formula : Formula}
    : formula.value? = none
      ↔ ∃ left right, binary left .rem right ∈ formula.subformulas ∧ right.value? = some 0 := by
  constructor
  · intro none
    induction formula with
    | literal n => cases none
    | binary left op right leftIH rightIH =>
        cases leftValue : left.value? with
        | none =>
            obtain ⟨dividend, divisor, member, zero⟩ := leftIH leftValue
            exact ⟨dividend, divisor, .tail _ (List.mem_append_left _ member), zero⟩
        | some v =>
            cases rightValue : right.value? with
            | none =>
                obtain ⟨dividend, divisor, member, zero⟩ := rightIH rightValue
                exact ⟨dividend, divisor, .tail _ (List.mem_append_right _ member), zero⟩
            | some w =>
                rw [value?, leftValue, rightValue] at none
                obtain ⟨rfl, rfl⟩ := IntegerOperator.result?_eq_none_iff.mp none
                exact ⟨left, right, mem_subformulas _, rightValue⟩
  · rintro ⟨left, right, member, zero⟩
    apply value?_eq_none_of_mem member
    rw [value?, zero]
    cases left.value? <;> rfl

-----------------------------------------------------------------------------------------
-- Evaluation
-----------------------------------------------------------------------------------------

/-- The outcome of an evaluation on the first line is an exact value, or tells that there is none.
-/
def IsOutcome (value? : Option ℤ) (outcome : Except EvalError Value) : Prop :=
  match value? with
  | some v => ∃ number : Binary64, outcome = .ok (.number number) ∧ number.IsInteger v
  | none => outcome = .error (.divisionByZero 1)

/-- Digits of an integer within the precision are read as the integer. -/
theorem isInteger_ofDigits {n : ℕ} (small : (n : ℤ).natAbs ≤ twoTo precision)
    : ((Decimal.ofDigits (Nat.toDigits 10 n)).nearest false).IsInteger n := by
  rw [Decimal.ofDigits, Nat.ofDigitChars_ten_toDigits, Decimal.nearest_natural]
  apply Binary64.isInteger_nearest small one_pos
  rw [Nat.cast_one, mul_one]
  exact Nat.cast_mul n unitsInOne

/-- Operators take exact values of their operands to exact values. -/
theorem isOutcome_apply {a b : Binary64} {v w : ℤ} (first : a.IsInteger v)
    (second : b.IsInteger w) (small : ∀ result ∈ op.result? v w, result.natAbs ≤ twoTo precision)
    : IsOutcome (op.result? v w) (op.toOperator.apply (.number a) (.number b) 1) := by
  have applied : op.toOperator.apply (.number a) (.number b) 1
      = op.toOperator.compute a b 1 >>= fun result => .ok (.number result) :=
    rfl
  rw [applied]
  cases exact : op.result? v w with
  | some result =>
      obtain ⟨number, computed, isInteger⟩ :=
        IntegerOperator.compute_of_exact first second exact (small result exact) 1
      exact ⟨number, by rw [computed]; rfl, isInteger⟩
  | none =>
      rw [IntegerOperator.compute_of_zero second exact 1]
      rfl

/-- The tree of a formula is evaluated exactly, by induction on the formula. -/
theorem isOutcome_denote (formula : Formula) (small : formula.IsSmall) (env : Environment)
    : IsOutcome formula.value? (formula.expr.denote env) := by
  induction formula with
  | literal n =>
      exact ⟨_, rfl, isInteger_ofDigits (small _ (mem_subformulas _) n rfl)⟩
  | binary left op right leftIH rightIH =>
      have leftOutcome := leftIH small.of_left
      have rightOutcome := rightIH small.of_right
      have bound := small _ (mem_subformulas _)
      rw [value?] at bound ⊢
      rw [expr, Expr.denote]
      cases leftValue : left.value? with
      | none =>
          rw [leftValue, IsOutcome] at leftOutcome
          rw [leftOutcome]
          rfl
      | some v =>
          rw [leftValue] at leftOutcome bound
          obtain ⟨a, first, isInteger⟩ := leftOutcome
          cases rightValue : right.value? with
          | none =>
              rw [rightValue, IsOutcome] at rightOutcome
              rw [first, rightOutcome]
              rfl
          | some w =>
              rw [rightValue] at rightOutcome bound
              obtain ⟨b, second, isInteger'⟩ := rightOutcome
              rw [first, second]
              exact isOutcome_apply isInteger isInteger' bound

end Formula
end Reckoner
