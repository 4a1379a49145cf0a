import Reckoner.Proofs.Evaluation.Agreement
import Reckoner.Proofs.Evaluation.Postorder

/-! Why an evaluation fails. The subexpression to blame is the first one in postorder that is at
fault itself: an unbound name, an operator with a null operand, or one with a zero divisor. There
is none exactly if the expression has a value.
-/

namespace Reckoner

/-- The operators whose right operand is a divisor. -/
def Operator.divides : Operator → Bool
  | div | rem => true
  | add | sub | mul => false

namespace Operator

/-- Numbers have a number as their result, unless one is divided by zero. -/
theorem apply_number (op : Operator) (a b : Binary64) (line : Nat)
    : ∃ result,
        op.apply (.number a) (.number b) line
          = if op.divides && b.isZero then
              .error (.divisionByZero line)
            else
              .ok (.number result) := by
  have applied : op.apply (.number a) (.number b) line
      = op.compute a b line >>= fun result => .ok (.number result) :=
    rfl
  rw [applied]
  cases op with
  | add | sub | mul => exact ⟨_, rfl⟩
  | div =>
      refine ⟨a.div b, ?_⟩
      simp only [compute]
      cases b.isZero <;> rfl
  | rem =>
      refine ⟨a.rem b, ?_⟩
      simp only [compute]
      cases b.isZero <;> rfl

/-- No operator gives null. -/
theorem apply_ne_null (op : Operator) (left right : Value) (line : Nat)
    : op.apply left right line ≠ .ok .null := by
  cases left with
  | null => exact nofun
  | number a =>
      cases right with
      | null => exact nofun
      | number b =>
          obtain ⟨result, applied⟩ := op.apply_number a b line
          rw [applied]
          split <;> simp

end Operator

namespace Expr

/-- Whether an operator stands at the root of an expression. -/
def isBinary : Expr → Bool
  | binary .. => true
  | number .. | null _ | reference .. => false

/-- A leaf that is null: the literal, or a name that is bound to null. -/
def IsNull (env : Environment) : Expr → Prop
  | null _ => True
  | reference name _ => env.lookup name = some .null
  | number .. | binary .. => False

/-- Whether an expression has a value that is a zero, of either sign. -/
def comesToZero (env : Environment) (e : Expr) : Bool :=
  match (e.evaluate env).result with
  | .ok (.number value) => value.isZero
  | .ok .null | .error _ => false

/-- The error that the root of an expression is at fault for, given what its operands come to. A
null operand is at fault before a zero divisor, and the left one before the right one.
-/
def fault? (env : Environment) : Expr → Option EvalError
  | number .. | null _ => none
  | reference name line =>
      if env.lookup name = none then some (.unknownVariable name line) else none
  | binary left op right line =>
      if (left.evaluate env).result = .ok .null then
        some (.notANumber "left operand" Value.null.typeName line)
      else if (right.evaluate env).result = .ok .null then
        some (.notANumber "right operand" Value.null.typeName line)
      else if op.divides && right.comesToZero env then
        some (.divisionByZero line)
      else
        none

/-- What an expression needs to have a value: its names are bound, its operators are applied to
no leaf that is null, and nothing that it divides by is a zero of either sign.
-/
structure IsProvided (env : Environment) (e : Expr) : Prop where
  bound : ∀ name ∈ e.mentions, env.lookup name ≠ none
  numeric : e.isBinary → ∀ leaf ∈ e.subexpressions, ¬ leaf.IsNull env
  divisible
    : ∀ left op right line,
        .binary left op right line ∈ e.subexpressions
        → op.divides
        → right.comesToZero env = false

variable {env : Environment} {e inner : Expr}

-----------------------------------------------------------------------------------------
-- Subexpressions
-----------------------------------------------------------------------------------------

theorem mem_subexpressions_self (e : Expr)
    : e ∈ e.subexpressions := by
  obtain ⟨inside, parts⟩ := e.exists_subexpressions_eq
  simp [parts]

/-- The operands of a subexpression are subexpressions, by induction on the expression. -/
theorem operands_mem_subexpressions {left right : Expr} {op : Operator} {line : Nat}
    (member : .binary left op right line ∈ e.subexpressions)
    : left ∈ e.subexpressions ∧ right ∈ e.subexpressions := by
  induction e with
  | number value _ | null _ | reference name _ => simp [subexpressions] at member
  | binary outer _ outer' _ leftIH rightIH =>
      simp only [subexpressions, List.mem_append, List.mem_singleton] at member ⊢
      obtain (inside | inside) | same := member
      · exact (leftIH inside).imp (fun found => .inl (.inl found)) fun found => .inl (.inl found)
      · exact (rightIH inside).imp (fun found => .inl (.inr found)) fun found => .inl (.inr found)
      · obtain ⟨rfl, -, rfl, -⟩ := Expr.binary.inj same
        exact ⟨.inl (.inl left.mem_subexpressions_self), .inl (.inr right.mem_subexpressions_self)⟩

/-- A subexpression is the whole expression or an operand in it, by induction on that. -/
theorem eq_or_exists_operand (member : inner ∈ e.subexpressions)
    : inner = e
      ∨ ∃ left op right line,
          .binary left op right line ∈ e.subexpressions ∧ (inner = left ∨ inner = right) := by
  induction e with
  | number value _ | null _ | reference name _ => exact .inl (List.mem_singleton.mp member)
  | binary left op right line leftIH rightIH =>
      simp only [subexpressions, List.mem_append, List.mem_singleton] at member ⊢
      obtain (inside | inside) | same := member
      · obtain rfl | ⟨l, o, r, k, found, operand⟩ := leftIH inside
        · exact .inr ⟨_, _, _, _, .inr rfl, .inl rfl⟩
        · exact .inr ⟨l, o, r, k, .inl (.inl found), operand⟩
      · obtain rfl | ⟨l, o, r, k, found, operand⟩ := rightIH inside
        · exact .inr ⟨_, _, _, _, .inr rfl, .inr rfl⟩
        · exact .inr ⟨l, o, r, k, .inl (.inr found), operand⟩
      · exact .inl same

/-- The names that an expression mentions are those of the references in it. -/
theorem mem_mentions_iff {name : String}
    : name ∈ e.mentions ↔ ∃ line, .reference name line ∈ e.subexpressions := by
  induction e with
  | number value _ | null _ => simp [mentions, subexpressions]
  | reference other line => simp [mentions, subexpressions, eq_comm]
  | binary left op right line leftIH rightIH =>
      simp [mentions, subexpressions, leftIH, rightIH, exists_or]

theorem isBinary_of_mem_subexpressions {left right : Expr} {op : Operator} {line : Nat}
    (member : .binary left op right line ∈ e.subexpressions)
    : e.isBinary := by
  cases e with
  | number value _ | null _ | reference name _ => simp [subexpressions] at member
  | binary left op right line => rfl

-----------------------------------------------------------------------------------------
-- Faults
-----------------------------------------------------------------------------------------

/-- An expression comes to null only if it is a leaf that is null, since no operator gives it. -/
theorem denote_eq_null_iff
    : e.denote env = .ok .null ↔ e.IsNull env := by
  cases e with
  | number value line => simp [denote, IsNull]
  | null line => simp [denote, IsNull]
  | reference name line =>
      cases found : env.lookup name <;> simp [denote, IsNull, found]
  | binary left op right line =>
      simp only [denote, IsNull, iff_false]
      cases left.denote env with
      | error error => simp
      | ok a =>
          cases right.denote env with
          | error error => simp
          | ok b => exact op.apply_ne_null a b line

/-- Where both operands have values, an operator is at fault for the error of applying it. -/
theorem fault?_binary {left right : Expr} {a b : Value} (first : left.denote env = .ok a)
    (second : right.denote env = .ok b) (op : Operator) (line : Nat)
    : (binary left op right line).fault? env
      = match op.apply a b line with
        | .ok _ => none
        | .error error => some error := by
  simp only [fault?, comesToZero, evaluate_eq, first, second]
  cases a with
  | null => rfl
  | number a =>
      cases b with
      | null => rfl
      | number b =>
          obtain ⟨result, applied⟩ := op.apply_number a b line
          rw [applied]
          cases op.divides && b.isZero <;> rfl

/-- The error of an evaluation is that of the first subexpression at fault, by induction on the
expression: behind an operand that fails nothing is looked at, and behind two that have values
the operator is.
-/
theorem findSome?_fault? (env : Environment) (e : Expr)
    : e.subexpressions.findSome? (fault? env)
      = match e.denote env with
        | .ok _ => none
        | .error error => some error := by
  induction e with
  | number value line => rfl
  | null line => rfl
  | reference name line =>
      cases found : env.lookup name <;> simp [subexpressions, fault?, denote, found]
  | binary left op right line leftIH rightIH =>
      rw [subexpressions, List.findSome?_append, List.findSome?_append, leftIH, rightIH,
        List.findSome?_singleton]
      cases first : left.denote env with
      | error error => simp [denote, first]
      | ok a =>
          cases second : right.denote env with
          | error error => simp [denote, first, second]
          | ok b => simp [denote, first, second, fault?_binary first second]

/-- An expression has a value exactly if nothing in it is at fault. -/
theorem exists_ok_iff_fault?
    : (∃ value, (e.evaluate env).result = .ok value)
      ↔ ∀ inner ∈ e.subexpressions, inner.fault? env = none := by
  rw [← List.findSome?_eq_none_iff, findSome?_fault?, evaluate_eq]
  cases e.denote env <;> simp

/-- The error of a fault is on the line of its node. -/
theorem line_of_fault? {error : EvalError} (fault : e.fault? env = some error)
    : error.line = e.line := by
  cases e with
  | number value line | null line => cases fault
  | reference name line =>
      simp only [fault?] at fault
      split at fault <;> cases fault
      rfl
  | binary left op right line =>
      simp only [fault?] at fault
      repeat' split at fault
      all_goals cases fault
      all_goals rfl

-----------------------------------------------------------------------------------------
-- What keeps an expression from faults
-----------------------------------------------------------------------------------------

/-- An operator is not at fault exactly if neither operand is null, nor a divisor a zero. -/
theorem fault?_binary_eq_none_iff {left right : Expr} {op : Operator} {line : Nat}
    : (binary left op right line).fault? env = none
      ↔ ¬ left.IsNull env
        ∧ ¬ right.IsNull env
        ∧ (op.divides → right.comesToZero env = false) := by
  rw [← denote_eq_null_iff, ← denote_eq_null_iff, fault?, evaluate_eq, evaluate_eq]
  by_cases first : left.denote env = .ok .null
  · simp [first]
  · by_cases second : right.denote env = .ok .null
    · simp [first, second]
    · simp [first, second]

/-- An expression is provided with all it needs exactly if nothing in it is at fault. -/
theorem isProvided_iff_fault?
    : e.IsProvided env ↔ ∀ inner ∈ e.subexpressions, inner.fault? env = none := by
  constructor
  · intro provided inner member
    cases inner with
    | number value line | null line => rfl
    | reference name line =>
        exact if_neg (provided.bound name (mem_mentions_iff.mpr ⟨line, member⟩))
    | binary left op right line =>
        have numeric := provided.numeric (isBinary_of_mem_subexpressions member)
        obtain ⟨first, second⟩ := operands_mem_subexpressions member
        exact fault?_binary_eq_none_iff.mpr
          ⟨numeric left first, numeric right second, provided.divisible left op right line member⟩
  · intro faultless
    refine ⟨fun name mentioned unbound => ?_, fun isBinary leaf member isNull => ?_,
      fun left op right line member => ?_⟩
    · obtain ⟨line, member⟩ := mem_mentions_iff.mp mentioned
      have fault := faultless _ member
      simp [fault?, unbound] at fault
    · obtain rfl | ⟨left, op, right, line, found, operand⟩ := eq_or_exists_operand member
      · cases leaf with
        | number value line | binary left op right line => exact isNull
        | null line | reference name line => cases isBinary
      · have sound := fault?_binary_eq_none_iff.mp (faultless _ found)
        obtain rfl | rfl := operand
        · exact sound.1 isNull
        · exact sound.2.1 isNull
    · exact (fault?_binary_eq_none_iff.mp (faultless _ member)).2.2

/-- An expression has a value exactly if it is provided with all it needs, and under an operator
that value is never null. Otherwise its error is that of the first subexpression in postorder
that is at fault, and on the line of that one's node.
-/
theorem evaluate_blames (env : Environment) (e : Expr)
    : ((∃ value, (e.evaluate env).result = .ok value) ↔ e.IsProvided env)
      ∧ (e.isBinary → (e.evaluate env).result ≠ .ok .null)
      ∧ (∀ error, (e.evaluate env).result = .error error ↔
        ∃ before blamed after,
          e.subexpressions = before ++ blamed :: after
          ∧ blamed.fault? env = some error
          ∧ ∀ earlier ∈ before, earlier.fault? env = none)
      ∧ ∀ (inner : Expr) (error : EvalError),
        inner.fault? env = some error → error.line = inner.line := by
  refine ⟨exists_ok_iff_fault?.trans isProvided_iff_fault?.symm, fun isBinary null => ?_,
    fun error => ?_, fun inner error => line_of_fault?⟩
  · rw [evaluate_eq, denote_eq_null_iff] at null
    cases e with
    | number value line | binary left op right line => exact null
    | null line | reference name line => cases isBinary
  · rw [← List.findSome?_eq_some_iff, findSome?_fault?, evaluate_eq]
    cases e.denote env <;> simp

/-- A null operand is to blame before the zero that it is divided by, and before what follows. -/
example
    : (evaluate .empty
        (.binary (.binary (.null 1) .div (.number (.signedZero true) 2) 3) .add
          (.reference "x" 4) 5)).result
      = .error (.notANumber "left operand" "null" 3) := by
  decide +kernel

end Expr
end Reckoner
