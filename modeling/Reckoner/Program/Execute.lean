import Reckoner.Log
import Reckoner.Program

/-! Executing statements and programs in an environment. -/

namespace Reckoner

/-- An execution that has ended: its outcome, the environment it leaves, and its log. -/
structure Execution where
  result : Except EvalError Value
  environment : Environment
  log : List LogRecord

/-- Executes a statement. A declaration of a name that the innermost scope binds already
fails before its initializer is evaluated.
-/
def Statement.execute (env : Environment) : Statement → Execution
  | .expression value _ =>
      let evaluation := value.evaluate env
      { result := evaluation.result
        environment := env
        log := evaluation.applications.map .applied }
  | .declaration name initializer line =>
      if env.containsLocal name then
        { result := .error (.alreadyDeclared name line), environment := env, log := [] }
      else
        let evaluation := initializer.evaluate env
        let log := evaluation.applications.map LogRecord.applied
        match evaluation.result with
        | .error error => { result := .error error, environment := env, log := log }
        | .ok value =>
            { result := .ok value
              environment := env.bind name value
              log := log ++ [.declared name value] }

namespace Program

/-- Executes statements up to the first error, after a last value and with the log so far in
reverse.
-/
def executeFrom (env : Environment) (last : Value) (logged : List LogRecord)
    : Program → Execution
  | [] => { result := .ok last, environment := env, log := logged.reverse }
  | statement :: rest =>
      let done := statement.execute env
      match done.result with
      | .error error =>
          { result := .error error
            environment := done.environment
            log := logged.reverse ++ done.log }
      | .ok value => executeFrom done.environment value (done.log.reverse ++ logged) rest

/-- Executes a program. Its value is that of its last statement, or null without any. -/
def execute (env : Environment) (program : Program) : Execution :=
  executeFrom env .null [] program

end Program
end Reckoner
