import Reckoner.Environment
import Reckoner.Expr
import Reckoner.Operator.Apply

/-! Evaluating expressions. A machine takes one task after another and keeps the operands
on a stack, so deep trees cost no recursion; its run gives what the structural definitions
give.
-/

namespace Reckoner

/-- An operator that was applied, with its operands and its result. -/
structure Application where
  left : Value
  op : Operator
  right : Value
  result : Value
  deriving DecidableEq

/-- An evaluation that has ended: the operators applied, in order, and the outcome. -/
structure Evaluation where
  applications : List Application
  result : Except EvalError Value

namespace Expr

/-- The value of an expression, operand by operand from the left, or the first error. -/
def denote (env : Environment) : Expr → Except EvalError Value
  | number value _ => .ok (.number value)
  | null _ => .ok .null
  | reference name line =>
      match env.lookup name with
      | some value => .ok value
      | none => .error (.unknownVariable name line)
  | binary left op right line =>
      match left.denote env with
      | .error error => .error error
      | .ok a =>
          match right.denote env with
          | .error error => .error error
          | .ok b => op.apply a b line

/-- The operators of an expression that are applied before its evaluation ends. -/
def applications (env : Environment) : Expr → List Application
  | number .. | null _ | reference .. => []
  | binary left op right line =>
      match left.denote env with
      | .error _ => left.applications env
      | .ok a =>
          match right.denote env with
          | .error _ => left.applications env ++ right.applications env
          | .ok b =>
              left.applications env ++ right.applications env
                ++ match op.apply a b line with
                  | .error _ => []
                  | .ok result => [{ left := a, op := op, right := b, result := result }]

end Expr

/-- What is still to do in an evaluation: to visit an expression, or to apply an operator
to the two operands on top.
-/
inductive Task
  | visit (e : Expr)
  | apply (op : Operator) (line : Nat)

/-- The turns that a task takes at most: a binary node is taken apart before its operands
are visited and its operator is applied.
-/
def Task.work : Task → Nat
  | visit e => 2 * e.size
  | apply .. => 1

/-- An evaluation under way: its tasks and its operands, each with the top first, and the
operators applied so far, the latest first.
-/
structure Machine where
  tasks : List Task
  operands : List Value
  applied : List Application

/-- What one turn of a machine comes to. It is stuck where an operator lacks an operand or
no value is left at the end.
-/
inductive Turn
  | next (machine : Machine)
  | done (evaluation : Evaluation)
  | stuck

namespace Machine

/-- The machine that has an expression to visit and nothing else. -/
def start (e : Expr) : Machine :=
  { tasks := [.visit e], operands := [], applied := [] }

/-- The turns that the tasks of a machine take at most. -/
def work (machine : Machine) : Nat :=
  machine.tasks.foldr (fun task rest => task.work + rest) 0

/-- The evaluation that ends at a machine with the given outcome. -/
def finish (machine : Machine) (result : Except EvalError Value) : Evaluation :=
  { applications := machine.applied.reverse, result := result }

/-- Takes the task on top. The right operand of an operator stands above the left one. -/
def turn (env : Environment) (machine : Machine) : Turn :=
  match machine.tasks with
  | [] =>
      match machine.operands with
      | [] => .stuck
      | value :: _ => .done (machine.finish (.ok value))
  | .visit (.number value _) :: tasks =>
      .next { machine with tasks := tasks, operands := .number value :: machine.operands }
  | .visit (.null _) :: tasks =>
      .next { machine with tasks := tasks, operands := .null :: machine.operands }
  | .visit (.reference name line) :: tasks =>
      match env.lookup name with
      | none => .done (machine.finish (.error (.unknownVariable name line)))
      | some value =>
          .next { machine with tasks := tasks, operands := value :: machine.operands }
  | .visit (.binary left op right line) :: tasks =>
      .next
        { machine with
          tasks := .visit left :: .visit right :: .apply op line :: tasks }
  | .apply op line :: tasks =>
      match machine.operands with
      | right :: left :: operands =>
          match op.apply left right line with
          | .error error => .done (machine.finish (.error error))
          | .ok result =>
              .next
                { tasks := tasks
                  operands := result :: operands
                  applied :=
                    { left := left, op := op, right := right, result := result }
                      :: machine.applied }
      | _ => .stuck

/-- Every turn that leads on leaves less work, whichever task it takes. -/
theorem work_lt_of_turn {env : Environment} {machine next : Machine}
    (turned : machine.turn env = .next next)
    : next.work < machine.work := by
  obtain ⟨tasks, operands, applied⟩ := machine
  cases tasks with
  | nil => cases operands <;> cases turned
  | cons task tasks =>
      cases task with
      | visit e =>
          cases e with
          | number value line =>
              cases turned
              simp [work, Task.work, Expr.size]
          | null line =>
              cases turned
              simp [work, Task.work, Expr.size]
          | reference name line =>
              cases found : env.lookup name with
              | none => simp [turn, found] at turned
              | some value =>
                  simp only [turn, found, Turn.next.injEq] at turned
                  subst turned
                  simp [work, Task.work, Expr.size]
          | binary left op right line =>
              cases turned
              simp only [work, Task.work, Expr.size, List.foldr_cons]
              omega
      | apply op line =>
          match operands with
          | [] | [_] => cases turned
          | right :: left :: operands =>
              cases computed : op.apply left right line with
              | error error => simp [turn, computed] at turned
              | ok result =>
                  simp only [turn, computed, Turn.next.injEq] at turned
                  subst turned
                  simp [work, Task.work]

/-- Takes turns until the evaluation ends; there is none if the machine gets stuck. -/
def run (env : Environment) (machine : Machine) : Option Evaluation :=
  match _turned : machine.turn env with
  | .next next => next.run env
  | .done evaluation => some evaluation
  | .stuck => none
termination_by machine.work
decreasing_by exact work_lt_of_turn _turned

/-- What tasks come to by the structural definitions, on the given operands and after the
given applications, the latest first.
-/
def outcomeOf (env : Environment)
    : List Task → List Value → List Application → Option Evaluation
  | [], [], _ => none
  | [], value :: _, applied => some { applications := applied.reverse, result := .ok value }
  | .visit e :: tasks, operands, applied =>
      match e.denote env with
      | .ok value =>
          outcomeOf env tasks (value :: operands) ((e.applications env).reverse ++ applied)
      | .error error =>
          some
            { applications := applied.reverse ++ e.applications env
              result := .error error }
  | .apply op line :: tasks, right :: left :: operands, applied =>
      match op.apply left right line with
      | .ok result =>
          outcomeOf env tasks (result :: operands)
            ({ left := left, op := op, right := right, result := result } :: applied)
      | .error error => some { applications := applied.reverse, result := .error error }
  | .apply .. :: _, _, _ => none

/-- What a machine comes to by the structural definitions of what is pending in it. -/
def outcome (env : Environment) (machine : Machine) : Option Evaluation :=
  outcomeOf env machine.tasks machine.operands machine.applied

/-- What a machine comes to is what its turn comes to: a turn that leads on changes nothing
about it, and the others end with it.
Witness: the task on top decides; taking a binary node apart is its structural definition.
-/
theorem outcome_eq (env : Environment) (machine : Machine)
    : machine.outcome env
      = match machine.turn env with
        | .next next => next.outcome env
        | .done evaluation => some evaluation
        | .stuck => none := by
  obtain ⟨tasks, operands, applied⟩ := machine
  cases tasks with
  | nil => cases operands <;> rfl
  | cons task tasks =>
      cases task with
      | visit e =>
          cases e with
          | number value line => rfl
          | null line => rfl
          | reference name line =>
              cases found : env.lookup name <;>
                simp [outcome, outcomeOf, turn, finish, Expr.denote, Expr.applications, found]
          | binary left op right line =>
              simp only [outcome, outcomeOf, turn]
              cases first : left.denote env with
              | error error => simp [Expr.denote, Expr.applications, first]
              | ok a =>
                  cases second : right.denote env with
                  | error error => simp [Expr.denote, Expr.applications, first, second]
                  | ok b =>
                      cases computed : op.apply a b line <;>
                        simp [Expr.denote, Expr.applications, first, second, computed]
      | apply op line =>
          match operands with
          | [] | [_] => rfl
          | right :: left :: operands =>
              cases computed : op.apply left right line <;>
                simp [outcome, outcomeOf, turn, finish, computed]

/-- A run gives what the machine comes to, by induction on its turns. -/
theorem run_eq_outcome (env : Environment) (machine : Machine)
    : machine.run env = machine.outcome env := by
  induction machine using run.induct env with
  | case1 machine next turned ih =>
      rw [run, outcome_eq, turned]
      exact ih
  | case2 machine evaluation turned => rw [run, outcome_eq, turned]
  | case3 machine turned => rw [run, outcome_eq, turned]

/-- The machine that visits an expression comes to its applications and its value or error. -/
theorem outcome_start (env : Environment) (e : Expr)
    : (start e).outcome env
      = some { applications := e.applications env, result := e.denote env } := by
  simp only [outcome, start, outcomeOf]
  cases e.denote env <;> simp

end Machine

/-- Evaluates an expression by a machine that visits it, which never gets stuck. -/
def Expr.evaluate (env : Environment) (e : Expr) : Evaluation :=
  ((Machine.start e).run env).get
    (by rw [Machine.run_eq_outcome, Machine.outcome_start]; rfl)

/-- Evaluation gives what the structural definitions give. -/
theorem Expr.evaluate_eq (env : Environment) (e : Expr)
    : e.evaluate env = { applications := e.applications env, result := e.denote env } := by
  simp only [Expr.evaluate, Machine.run_eq_outcome, Machine.outcome_start, Option.get_some]

end Reckoner
