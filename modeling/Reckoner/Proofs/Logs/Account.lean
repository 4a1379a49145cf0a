import Reckoner.Proofs.Evaluation.Postorder
import Reckoner.Proofs.Sessions.Persistence

/-! The log as an account of the run: what was scanned, parsed, applied and declared, told by
the structure of the source alone. Nothing is written behind the first failure, and what was
declared is what the environment has gained.
-/

namespace Reckoner

/-- A record as it is written: its level and its text. -/
abbrev LogLine := LogLevel × String

namespace LogRecord

/-- How a record is written. -/
def line (record : LogRecord) : LogLine :=
  (record.level, record.message)

/-- The binding that a record tells of. -/
def binding? : LogRecord → Option (String × Value)
  | declared name value => some (name, value)
  | scanned _ | parsed _ | applied _ => none

end LogRecord

-----------------------------------------------------------------------------------------
-- Accounts
-----------------------------------------------------------------------------------------

/-- What is written about an expression: the operands and the result of every operator that its
evaluation gets through, in postorder.
-/
def Expr.account (env : Environment) (e : Expr) : List LogLine :=
  ((e.reached env).filterMap (Expr.application? env)).map fun a =>
    (.trace, s!"{a.left.text} {a.op.symbol} {a.right.text} = {a.result.text}")

/-- What is written about a statement. A declaration that is refused is not evaluated, and one
that is completed is told behind its initializer.
-/
def Statement.account (env : Environment) : Statement → List LogLine
  | .expression value _ => value.account env
  | .declaration name initializer _ =>
      if env.containsLocal name then
        []
      else
        initializer.account env
          ++ match initializer.denote env with
            | .ok value => [(.debug, s!"declared {name} = {value.text}")]
            | .error _ => []

/-- What is written about statements in order, up to the first one that fails. -/
def Program.account (env : Environment) : Program → List LogLine
  | [] => []
  | statement :: rest =>
      statement.account env
        ++ match (statement.execute env).result with
          | .ok _ => account (statement.execute env).environment rest
          | .error _ => []

/-- What is written about a source in a session, stage by stage. -/
def Session.account (session : Session) (source : String) : List LogLine :=
  match scan source with
  | .error _ => []
  | .ok tokens =>
      (.debug, s!"lexed {tokens.length} tokens")
        :: match Program.ofTokens tokens with
          | .error _ => []
          | .ok program =>
              (.debug, s!"parsed {program.length} statements")
                :: program.account session.environment

-----------------------------------------------------------------------------------------
-- What is written about statements
-----------------------------------------------------------------------------------------

namespace Expr

/-- Applications are written as their expression is accounted for. -/
theorem map_line_applications (env : Environment) (e : Expr)
    : ((e.applications env).map LogRecord.applied).map LogRecord.line = e.account env := by
  rw [applications_eq_filterMap_reached, List.map_map]
  rfl

/-- Applications bind nothing. -/
theorem filterMap_binding?_applications (env : Environment) (e : Expr)
    : ((e.applications env).map LogRecord.applied).filterMap LogRecord.binding? = [] := by
  rw [List.filterMap_map]
  exact List.filterMap_eq_nil_iff.mpr fun application _ => rfl

end Expr

namespace Statement

/-- A statement is written about as it is accounted for. -/
theorem map_line_log (env : Environment) (statement : Statement)
    : (statement.execute env).log.map LogRecord.line = statement.account env := by
  cases statement with
  | expression value line =>
      rw [execute, Expr.evaluate_eq, Expr.map_line_applications]
      rfl
  | declaration name initializer line =>
      cases bound : env.containsLocal name with
      | true =>
          rw [execute_declaration_of_containsLocal bound, account, if_pos bound]
          rfl
      | false =>
          rw [execute_declaration_of_not_containsLocal bound, account,
            if_neg (Bool.eq_false_iff.mp bound), ← Expr.map_line_applications]
          cases initializer.denote env with
          | error error => exact (List.append_nil _).symm
          | ok value => exact List.map_append

/-- Of a statement the log tells the bindings if it ends, and none otherwise. -/
theorem filterMap_binding?_log (env : Environment) (statement : Statement)
    : (statement.execute env).log.filterMap LogRecord.binding?
      = match (statement.execute env).result with
        | .ok value => statement.bindings value
        | .error _ => [] := by
  cases statement with
  | expression value line =>
      rw [execute, Expr.evaluate_eq, Expr.filterMap_binding?_applications]
      cases value.denote env <;> rfl
  | declaration name initializer line =>
      cases bound : env.containsLocal name with
      | true => rw [execute_declaration_of_containsLocal bound]; rfl
      | false =>
          rw [execute_declaration_of_not_containsLocal bound]
          have silent := initializer.filterMap_binding?_applications env
          cases initializer.denote env with
          | ok value => exact List.filterMap_append.trans (congrArg (· ++ [(name, value)]) silent)
          | error error => exact silent

/-- The environment has grown by the bindings that the log of a statement tells. -/
theorem growsBy_log (env : Environment) (statement : Statement)
    : env.GrowsBy ((statement.execute env).log.filterMap LogRecord.binding?)
        (statement.execute env).environment := by
  rw [filterMap_binding?_log]
  cases outcome : (statement.execute env).result with
  | ok value => exact growsBy_of_execute_ok outcome
  | error error =>
      rw [environment_execute_of_error outcome]
      exact .refl env

end Statement

-----------------------------------------------------------------------------------------
-- What is written about programs and sources
-----------------------------------------------------------------------------------------

namespace Program

/-- A program is written about as it is accounted for, by induction on its statements. -/
theorem map_line_log (env : Environment) (program : Program)
    : (execute env program).log.map LogRecord.line = program.account env := by
  induction program generalizing env with
  | nil => rfl
  | cons statement rest ih =>
      rw [(execute_cons env statement rest).1, account, List.map_append,
        Statement.map_line_log]
      cases (statement.execute env).result with
      | ok value => rw [ih]
      | error error => rfl

/-- The environment has grown by the bindings that the log of a program tells, whether it ends
or fails, by induction on its statements.
-/
theorem growsBy_log (env : Environment) (program : Program)
    : env.GrowsBy ((execute env program).log.filterMap LogRecord.binding?)
        (execute env program).environment := by
  induction program generalizing env with
  | nil => exact .refl env
  | cons statement rest ih =>
      have first := statement.growsBy_log env
      obtain ⟨log, environment⟩ := execute_cons env statement rest
      rw [log, environment, List.filterMap_append]
      cases (statement.execute env).result with
      | ok value => exact first.trans (ih _)
      | error error => simpa using first

end Program

namespace Session

/-- The log of a source is the account of it: nothing if the scan refuses it; otherwise how many
tokens there are and, if these are a program, how many statements and what is written about
them in order. The bindings it tells are those by which the environment has grown, and of any
session so many more names have a value.
-/
theorem log_accounts
    : (∀ (session : Session) (source : String),
        let run := session.run source
        run.log.map LogRecord.line = session.account source
        ∧ session.environment.GrowsBy (run.log.filterMap LogRecord.binding?)
            run.session.environment)
      ∧ ∀ (earlier : List String) (source : String),
          let session := fresh.runAll earlier
          let run := session.run source
          run.session.environment.size
            = session.environment.size + (run.log.filterMap LogRecord.binding?).length := by
  have accounts (session : Session) (source : String)
      : (session.run source).log.map LogRecord.line = session.account source
        ∧ session.environment.GrowsBy
            ((session.run source).log.filterMap LogRecord.binding?)
            (session.run source).session.environment := by
    rw [run, account]
    cases scan source with
    | error error => exact ⟨rfl, .refl _⟩
    | ok tokens =>
        cases parsed : Program.ofTokens tokens with
        | error error => simp only [parsed]; exact ⟨rfl, .refl _⟩
        | ok program =>
            simp only [parsed]
            refine ⟨?_, ?_⟩
            · simp only [List.map_cons, Program.map_line_log]
              rfl
            · exact program.growsBy_log session.environment
  refine ⟨accounts, fun earlier source => ?_⟩
  exact (accounts _ source).2.size_eq (outer_runAll_fresh earlier)

/-- Behind the remainder that fails nothing is written, and nothing about it. -/
example
    : (fresh.run "let x = 2 * 3 x % 0 let y = 1").log.map LogRecord.line
      = [(.debug, "lexed 14 tokens"), (.debug, "parsed 3 statements"),
        (.trace, "2 * 3 = 6"), (.debug, "declared x = 6")] := by
  decide +kernel

end Session
end Reckoner
