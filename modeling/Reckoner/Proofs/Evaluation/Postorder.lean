import Mathlib.Data.List.TakeWhile
import Reckoner.Expr.Evaluate
import Reckoner.Expr.Postorder

/-! Evaluation in postorder. An evaluation gets through the subexpressions in postorder up to
the first one that has no value, and applies the operators of those it gets through.
-/

namespace Reckoner.Expr

/-- An expression and those inside it, operands before operators and left before right. -/
def subexpressions : Expr → List Expr
  | number value line => [.number value line]
  | null line => [.null line]
  | reference name line => [.reference name line]
  | binary left op right line =>
      left.subexpressions ++ right.subexpressions ++ [.binary left op right line]

/-- The node at the root of an expression, without its operands. -/
def node : Expr → Node
  | number value line => .number value line
  | null line => .null line
  | reference name line => .reference name line
  | binary _ op _ line => .apply op line

/-- The subexpressions of an expression are one for each of its nodes in postorder. -/
theorem map_node_subexpressions (e : Expr)
    : e.subexpressions.map node = e.postorder := by
  induction e with
  | number value line => simp [subexpressions, node]
  | null line => simp [subexpressions, node]
  | reference name line => simp [subexpressions, node]
  | binary left op right line leftIH rightIH =>
      simp [subexpressions, node, leftIH, rightIH]

/-- Whether an expression comes to a value. -/
def hasValue (env : Environment) (e : Expr) : Bool :=
  (e.denote env).isOk

/-- The subexpressions that an evaluation gets through: those in front of the first one that
has no value.
-/
def reached (env : Environment) (e : Expr) : List Expr :=
  e.subexpressions.takeWhile (hasValue env)

/-- The application that gives an expression its value, if there is one. -/
def application? (env : Environment) : Expr → Option Application
  | number .. | null _ | reference .. => none
  | binary left op right line =>
      match left.denote env, right.denote env, (binary left op right line).denote env with
      | .ok a, .ok b, .ok result => some { left := a, op := op, right := b, result := result }
      | _, _, _ => none

variable {env : Environment} {e : Expr}

theorem hasValue_of_denote {value : Value} (evaluated : e.denote env = .ok value)
    : e.hasValue env := by
  rw [hasValue, evaluated]
  rfl

theorem not_hasValue_of_denote {error : EvalError} (failed : e.denote env = .error error)
    : e.hasValue env = false := by
  rw [hasValue, failed]
  rfl

/-- An expression comes last among its subexpressions. -/
theorem exists_subexpressions_eq (e : Expr)
    : ∃ inside, e.subexpressions = inside ++ [e] := by
  cases e with
  | number value line => exact ⟨[], rfl⟩
  | null line => exact ⟨[], rfl⟩
  | reference name line => exact ⟨[], rfl⟩
  | binary left op right line => exact ⟨_, rfl⟩

/-- Inside an expression with a value everything has a value, by induction on it. -/
theorem hasValue_of_mem_subexpressions (value : e.hasValue env)
    : ∀ inner ∈ e.subexpressions, inner.hasValue env := by
  induction e with
  | number _ _ => exact List.forall_mem_singleton.mpr value
  | null _ => exact List.forall_mem_singleton.mpr value
  | reference _ _ => exact List.forall_mem_singleton.mpr value
  | binary left op right line leftIH rightIH =>
      have operands : left.hasValue env ∧ right.hasValue env := by
        simp only [hasValue, denote] at value ⊢
        cases first : left.denote env with
        | error error => simp [first, Except.isOk, Except.toBool] at value
        | ok a =>
            cases second : right.denote env with
            | error error => simp [first, second, Except.isOk, Except.toBool] at value
            | ok b => exact ⟨rfl, rfl⟩
      refine List.forall_mem_append.mpr ⟨List.forall_mem_append.mpr ⟨?_, ?_⟩, ?_⟩
      · exact leftIH operands.1
      · exact rightIH operands.2
      · exact List.forall_mem_singleton.mpr value

/-- An evaluation that has a value gets through everything, and on to what is behind. -/
theorem takeWhile_append_of_hasValue (value : e.hasValue env) (more : List Expr)
    : (e.subexpressions ++ more).takeWhile (hasValue env)
      = e.reached env ++ more.takeWhile (hasValue env) := by
  have all := hasValue_of_mem_subexpressions value
  rw [reached, List.takeWhile_append_of_pos all, List.takeWhile_eq_self_iff.mpr all]

/-- An evaluation that has no value gets to nothing behind it. -/
theorem takeWhile_append_of_not_hasValue (none : e.hasValue env = false) (more : List Expr)
    : (e.subexpressions ++ more).takeWhile (hasValue env) = e.reached env := by
  obtain ⟨inside, parts⟩ := e.exists_subexpressions_eq
  simp [reached, parts, List.takeWhile_append, none]

/-- The operators applied in an evaluation are those of the subexpressions that it gets through,
in postorder. Witness: induction on the expression; an operand without a value is the last to
be looked at.
-/
theorem applications_eq_filterMap_reached (env : Environment) (e : Expr)
    : e.applications env = (e.reached env).filterMap (application? env) := by
  induction e with
  | number value line => rfl
  | null line => rfl
  | reference name line =>
      simp only [applications, reached, subexpressions, List.takeWhile_cons]
      split <;> rfl
  | binary left op right line leftIH rightIH =>
      rw [reached, subexpressions, List.append_assoc]
      cases first : left.denote env with
      | error error =>
          rw [takeWhile_append_of_not_hasValue (not_hasValue_of_denote first), ← leftIH]
          simp [applications, first]
      | ok a =>
          rw [takeWhile_append_of_hasValue (hasValue_of_denote first), List.filterMap_append,
            ← leftIH]
          cases second : right.denote env with
          | error error =>
              rw [takeWhile_append_of_not_hasValue (not_hasValue_of_denote second), ← rightIH]
              simp [applications, first, second]
          | ok b =>
              rw [takeWhile_append_of_hasValue (hasValue_of_denote second),
                List.filterMap_append, ← rightIH]
              cases computed : op.apply a b line <;>
                simp [applications, application?, hasValue, denote, first, second, computed,
                  Except.isOk, Except.toBool]

end Reckoner.Expr
