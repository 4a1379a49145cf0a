import Reckoner.Expr.Evaluate

/-! Expressions in place of variables. What stands in place of a reference is evaluated where
the reference was, so it comes to the same if it has the value that the name is bound to.
-/

namespace Reckoner
namespace Expr

/-- The expression with another one in place of each reference, told by its name and line. -/
def replaceReferences (replacement : String → Nat → Expr) : Expr → Expr
  | number value line => .number value line
  | null line => .null line
  | reference name line => replacement name line
  | binary left op right line =>
      .binary (left.replaceReferences replacement) op (right.replaceReferences replacement) line

/-- The expression with an initializer in place of every reference to a name. -/
def substitute (e : Expr) (name : String) (initializer : Expr) : Expr :=
  e.replaceReferences fun other line =>
    if other = name then initializer else .reference other line

/-- References can be replaced by what comes to the same in another environment, by induction
on the expression around them.
-/
theorem denote_replaceReferences {env other : Environment} {replacement : String → Nat → Expr}
    (agree : ∀ name line,
      (replacement name line).denote env = (reference name line).denote other)
    (e : Expr)
    : (e.replaceReferences replacement).denote env = e.denote other := by
  induction e with
  | number value line => rfl
  | null line => rfl
  | reference name line => exact agree name line
  | binary left op right line leftIH rightIH =>
      simp only [replaceReferences, denote, leftIH, rightIH]

/-- A reference in an environment with one more binding is the value bound, if it is to that
name, and what it was before otherwise.
-/
theorem denote_reference_bind (env : Environment) (name other : String) (value : Value)
    (line : Nat)
    : (reference other line).denote (env.bind name value)
      = if other = name then .ok value else (reference other line).denote env := by
  simp only [denote, Environment.lookup_bind]
  by_cases same : other = name <;> simp [same]

/-- A variable can be replaced by its initializer. Where that has a value, an expression comes
to the same with it in place of every reference to the variable as with the variable declared,
error and line included. The initializer itself sees what the variable shadows.
-/
theorem evaluate_substitute {env : Environment} {initializer : Expr} {value : Value}
    (evaluated : (initializer.evaluate env).result = .ok value) (name : String) (body : Expr)
    : (body.evaluate (env.declare name value).2).result
      = ((body.substitute name initializer).evaluate env).result := by
  rw [evaluate_eq] at evaluated
  rw [evaluate_eq, evaluate_eq]
  refine (denote_replaceReferences (fun other line => ?_) body).symm
  rw [Environment.declare, denote_reference_bind]
  split
  · exact evaluated
  · rfl

/-- A name is declared as the negative of itself in an outer scope, and a product with an unknown
name fails where it did with the negative written out.
-/
theorem evaluate_substitute_shadowed
    : let env : Environment :=
        { innermost := [], outer := [[("x", .number (.infinite false))]] }
      let initializer : Expr := .binary (.number (.signedZero false) 1) .sub (.reference "x" 1) 1
      let body : Expr :=
        .binary (.binary (.reference "x" 2) .mul (.reference "y" 3) 3) .rem (.reference "x" 2) 2
      (initializer.evaluate env).result = .ok (.number (.infinite true))
      ∧ body.substitute "x" initializer
        = .binary (.binary initializer .mul (.reference "y" 3) 3) .rem initializer 2
      ∧ (body.evaluate (env.declare "x" (.number (.infinite true))).2).result
        = ((body.substitute "x" initializer).evaluate env).result
      ∧ (body.evaluate (env.declare "x" (.number (.infinite true))).2).result
        = .error (.unknownVariable "y" 3) := by
  intro env initializer body
  have evaluated : (initializer.evaluate env).result = .ok (.number (.infinite true)) := by
    rw [evaluate_eq]
    rfl
  refine ⟨evaluated, rfl, evaluate_substitute evaluated "x" body, ?_⟩
  rw [evaluate_eq]
  rfl

end Expr
end Reckoner
