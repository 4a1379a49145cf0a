import Mathlib.Logic.Equiv.Basic
import Reckoner.Program.Execute
import Reckoner.Proofs.Evaluation.Blame

/-! Other names for variables. Names are compared and nothing else is done with them, so a
program whose names are mapped to others, no two of them to the same, does in an environment with
the new names what it did, under the new names.
-/

namespace Reckoner

variable (rename : String → String)

/-- The expression with every reference to the name that its own is mapped to. -/
def Expr.mapNames : Expr → Expr
  | number value line => .number value line
  | null line => .null line
  | reference name line => .reference (rename name) line
  | binary left op right line => .binary left.mapNames op right.mapNames line

/-- The statement with every name mapped, a declared one too. -/
def Statement.mapNames : Statement → Statement
  | expression value line => .expression (value.mapNames rename) line
  | declaration name initializer line =>
      .declaration (rename name) (initializer.mapNames rename) line

/-- The scope that binds the mapped names to the same values. -/
def Scope.mapNames (scope : Scope) : Scope :=
  scope.map fun entry => (rename entry.1, entry.2)

/-- The environment with the names of every scope mapped. -/
def Environment.mapNames (env : Environment) : Environment :=
  { innermost := Scope.mapNames rename env.innermost
    outer := env.outer.map (Scope.mapNames rename) }

/-- The error with the name mapped that it tells of, if it tells of one. -/
def EvalError.mapName : EvalError → EvalError
  | unknownVariable name line => .unknownVariable (rename name) line
  | alreadyDeclared name line => .alreadyDeclared (rename name) line
  | notANumber role found line => .notANumber role found line
  | divisionByZero line => .divisionByZero line

/-- The record with the name mapped that it tells of, if it tells of one. -/
def LogRecord.mapName : LogRecord → LogRecord
  | declared name value => .declared (rename name) value
  | scanned tokens => .scanned tokens
  | parsed statements => .parsed statements
  | applied application => .applied application

/-- The execution with the names mapped of its error, its environment and its log. -/
def Execution.mapNames (execution : Execution) : Execution :=
  { result := execution.result.mapError (EvalError.mapName rename)
    environment := execution.environment.mapNames rename
    log := execution.log.map (LogRecord.mapName rename) }

variable {rename}

-----------------------------------------------------------------------------------------
-- Environments
-----------------------------------------------------------------------------------------

namespace Scope

/-- A mapped name has the value of the name, by induction on the bindings: a binding is of the
one exactly if it was of the other.
-/
theorem lookup_mapNames (injective : Function.Injective rename) (scope : Scope) (name : String)
    : List.lookup (rename name) (Scope.mapNames rename scope) = List.lookup name scope := by
  induction scope with
  | nil => rfl
  | cons entry rest ih =>
      rw [mapNames, List.map_cons, lookup_cons, lookup_cons]
      simp only [injective.eq_iff]
      exact congrArg _ ih

theorem mapNames_insert (injective : Function.Injective rename) (scope : Scope) (name : String)
    (value : Value)
    : Scope.mapNames rename (scope.insert name value)
      = (Scope.mapNames rename scope).insert (rename name) value := by
  have others : Scope.mapNames rename (scope.erase name)
      = (Scope.mapNames rename scope).erase (rename name) := by
    simp only [Scope.mapNames, erase, List.filter_map, Function.comp_def, ne_eq, injective.eq_iff]
  rw [insert, insert, ← others]
  rfl

end Scope

namespace Environment

theorem scopes_mapNames (env : Environment)
    : (env.mapNames rename).scopes = env.scopes.map (Scope.mapNames rename) :=
  rfl

theorem lookup_mapNames (injective : Function.Injective rename) (env : Environment) (name : String)
    : (env.mapNames rename).lookup (rename name) = env.lookup name := by
  simp only [lookup, scopes_mapNames, List.findSome?_map, Function.comp_def,
    Scope.lookup_mapNames injective]

theorem containsLocal_mapNames (injective : Function.Injective rename) (env : Environment)
    (name : String)
    : (env.mapNames rename).containsLocal (rename name) = env.containsLocal name := by
  simp only [containsLocal, localValue?, Environment.mapNames, Scope.lookup_mapNames injective]

theorem mapNames_bind (injective : Function.Injective rename) (env : Environment) (name : String)
    (value : Value)
    : (env.bind name value).mapNames rename = (env.mapNames rename).bind (rename name) value := by
  simp only [Environment.mapNames, bind, Scope.mapNames_insert injective]

end Environment

-----------------------------------------------------------------------------------------
-- Evaluation
-----------------------------------------------------------------------------------------

/-- The errors of applying an operator tell of no name. -/
theorem Operator.mapError_mapName_apply (op : Operator) (left right : Value) (line : Nat)
    : (op.apply left right line).mapError (EvalError.mapName rename)
      = op.apply left right line := by
  cases left with
  | null => rfl
  | number a =>
      cases right with
      | null => rfl
      | number b =>
          obtain ⟨result, applied⟩ := op.apply_number a b line
          rw [applied]
          split <;> rfl

namespace Expr

variable (injective : Function.Injective rename) (env : Environment) (e : Expr)

include injective

/-- An expression comes to the same under other names, by induction on it. -/
theorem denote_mapNames
    : (e.mapNames rename).denote (env.mapNames rename)
      = (e.denote env).mapError (EvalError.mapName rename) := by
  induction e with
  | number value line | null line => rfl
  | reference name line =>
      rw [Expr.mapNames, denote, denote, env.lookup_mapNames injective]
      cases env.lookup name <;> rfl
  | binary left op right line leftIH rightIH =>
      simp only [Expr.mapNames, denote, leftIH, rightIH]
      cases left.denote env with
      | error error => rfl
      | ok a =>
          cases right.denote env with
          | error error => rfl
          | ok b => exact (op.mapError_mapName_apply a b line).symm

theorem applications_mapNames
    : (e.mapNames rename).applications (env.mapNames rename) = e.applications env := by
  induction e with
  | number value line | null line | reference name line => rfl
  | binary left op right line leftIH rightIH =>
      simp only [Expr.mapNames, applications, denote_mapNames injective, leftIH, rightIH]
      cases left.denote env with
      | error error => rfl
      | ok a => cases right.denote env <;> rfl

end Expr

-----------------------------------------------------------------------------------------
-- Execution
-----------------------------------------------------------------------------------------

theorem Statement.execute_mapNames (injective : Function.Injective rename) (env : Environment)
    (statement : Statement)
    : (statement.mapNames rename).execute (env.mapNames rename)
      = (statement.execute env).mapNames rename := by
  -- An application tells of no name, so the records of applications stay as they are.
  have records (e : Expr)
      : (e.applications env).map LogRecord.applied
        = ((e.applications env).map LogRecord.applied).map (LogRecord.mapName rename) := by
    rw [List.map_map]
    rfl
  cases statement with
  | expression value line =>
      simp only [Statement.mapNames, execute, Expr.evaluate_eq, Expr.denote_mapNames injective,
        Expr.applications_mapNames injective, Execution.mapNames, ← records]
  | declaration name initializer line =>
      simp only [Statement.mapNames, execute, env.containsLocal_mapNames injective,
        Expr.evaluate_eq, Expr.denote_mapNames injective, Expr.applications_mapNames injective]
      split
      · rfl
      · cases initializer.denote env with
        | error error => simp only [Except.mapError, Execution.mapNames, ← records]
        | ok value =>
            simp only [Except.mapError, Execution.mapNames, env.mapNames_bind injective,
              List.map_append, ← records]
            rfl

namespace Program

/-- Statements do the same under other names, by induction on them. -/
theorem executeFrom_map_mapNames (injective : Function.Injective rename) (env : Environment)
    (last : Value) (logged : List LogRecord) (program : Program)
    : executeFrom (env.mapNames rename) last (logged.map (LogRecord.mapName rename))
        (program.map (Statement.mapNames rename))
      = (executeFrom env last logged program).mapNames rename := by
  induction program generalizing env last logged with
  | nil =>
      simp only [List.map_nil, executeFrom, Execution.mapNames, List.map_reverse, Except.mapError]
  | cons statement rest ih =>
      simp only [List.map_cons, executeFrom, Statement.execute_mapNames injective]
      cases done : (statement.execute env).result with
      | error error =>
          simp only [Execution.mapNames, done, Except.mapError, List.map_append, List.map_reverse]
      | ok value =>
          have onward := ih (statement.execute env).environment value
            ((statement.execute env).log.reverse ++ logged)
          rw [List.map_append, List.map_reverse] at onward
          simp only [Execution.mapNames, done, Except.mapError]
          exact onward

/-- Under other names, no two of which become the same, a program comes to the same value, or to
the same error with its name mapped, and leaves the environment that it left and the log that it
kept, with their names mapped, also if it fails midway.
-/
theorem execute_map_mapNames (injective : Function.Injective rename) (env : Environment)
    (program : Program)
    : execute (env.mapNames rename) (program.map (Statement.mapNames rename))
      = (execute env program).mapNames rename :=
  program.executeFrom_map_mapNames injective env .null []

/-- Two names change places, one of which shadows an outer scope: the first declaration copies the
inner value and the second one fails, in either run on its own name.
-/
theorem execute_map_mapNames_swap
    : let rename : String → String := Equiv.swap "x" "y"
      let program : Program :=
        [.declaration "y" (.reference "x" 1) 1, .declaration "x" (.reference "z" 3) 2]
      let env : Environment :=
        { innermost := [("x", .null)], outer := [[("x", .number (.infinite true))]] }
      Function.Injective rename
      ∧ execute (env.mapNames rename) (program.map (Statement.mapNames rename))
        = (execute env program).mapNames rename
      ∧ (execute env program).result = .error (.alreadyDeclared "x" 2)
      ∧ ((execute env program).mapNames rename).result = .error (.alreadyDeclared "y" 2)
      ∧ ((execute env program).mapNames rename).environment
        = (env.mapNames rename).bind "x" .null := by
  intro rename program env
  have injective : Function.Injective rename := (Equiv.swap "x" "y").injective
  exact ⟨injective, execute_map_mapNames injective env program, by decide +kernel,
    by decide +kernel, by decide +kernel⟩

end Program
end Reckoner
