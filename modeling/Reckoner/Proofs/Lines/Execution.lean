import Reckoner.Program.Execute
import Reckoner.Proofs.Lines.Mapping

/-! Execution on other lines. Lines decide nothing about an execution but the line of the
error that ends it, which moves with the program.
-/

namespace Reckoner

variable (move : Nat → Nat)

/-- The error on the line that its own is mapped to. -/
def EvalError.mapLine : EvalError → EvalError
  | unknownVariable name line => .unknownVariable name (move line)
  | alreadyDeclared name line => .alreadyDeclared name (move line)
  | notANumber role found line => .notANumber role found (move line)
  | divisionByZero line => .divisionByZero (move line)

/-- The execution with its error, if there is one, on another line. -/
def Execution.mapLine (execution : Execution) : Execution :=
  { execution with result := execution.result.mapError (EvalError.mapLine move) }

theorem Operator.apply_move (op : Operator) (left right : Value) (line : Nat)
    : op.apply left right (move line)
      = (op.apply left right line).mapError (EvalError.mapLine move) := by
  cases left with
  | null => rfl
  | number a =>
      cases right with
      | null => rfl
      | number b =>
          cases op with
          | add | sub | mul => rfl
          | div | rem => cases zero : b.isZero <;> simp [apply, compute, Value.asNumber, zero,
              bind, Except.bind, pure, Except.pure, Except.mapError, EvalError.mapLine]

namespace Expr

/-- The value of an expression does not depend on its lines, by induction on it. -/
theorem denote_mapLines (env : Environment) (e : Expr)
    : (e.mapLines move).denote env = (e.denote env).mapError (EvalError.mapLine move) := by
  induction e with
  | number value line | null line => rfl
  | reference name line =>
      cases found : env.lookup name <;>
        simp [mapLines, denote, found, Except.mapError, EvalError.mapLine]
  | binary left op right line leftIH rightIH =>
      simp only [mapLines, denote, leftIH, rightIH]
      cases left.denote env with
      | error error => rfl
      | ok a =>
          cases right.denote env with
          | error error => rfl
          | ok b => exact op.apply_move move a b line

theorem applications_mapLines (env : Environment) (e : Expr)
    : (e.mapLines move).applications env = e.applications env := by
  induction e with
  | number value line | null line | reference name line => rfl
  | binary left op right line leftIH rightIH =>
      simp only [mapLines, applications, denote_mapLines, leftIH, rightIH]
      cases left.denote env with
      | error error => rfl
      | ok a =>
          cases right.denote env with
          | error error => rfl
          | ok b =>
              simp only [Except.mapError, op.apply_move]
              cases op.apply a b line <;> rfl

end Expr

theorem Statement.execute_mapLines (env : Environment) (statement : Statement)
    : (statement.mapLines move).execute env = (statement.execute env).mapLine move := by
  cases statement with
  | expression value line =>
      simp only [mapLines, execute, Expr.evaluate_eq, Expr.denote_mapLines,
        Expr.applications_mapLines, Execution.mapLine]
  | declaration name initializer line =>
      cases bound : env.containsLocal name with
      | true =>
          simp [mapLines, execute, bound, Execution.mapLine, Except.mapError,
            EvalError.mapLine]
      | false =>
          simp only [mapLines, execute, bound, Expr.evaluate_eq, Expr.denote_mapLines,
            Expr.applications_mapLines]
          cases initializer.denote env <;> rfl

namespace Program

theorem executeFrom_map_mapLines (env : Environment) (last : Value)
    (logged : List LogRecord) (program : Program)
    : executeFrom env last logged (program.map (Statement.mapLines move))
      = (executeFrom env last logged program).mapLine move := by
  induction program generalizing env last logged with
  | nil => rfl
  | cons statement rest ih =>
      simp only [List.map_cons, executeFrom, Statement.execute_mapLines, Execution.mapLine]
      cases (statement.execute env).result with
      | error error => rfl
      | ok value => exact ih _ _ _

/-- A program on other lines does the same and fails with the same error on another line. -/
theorem execute_map_mapLines (env : Environment) (program : Program)
    : execute env (program.map (Statement.mapLines move))
      = (execute env program).mapLine move :=
  program.executeFrom_map_mapLines move env .null []

end Program
end Reckoner
