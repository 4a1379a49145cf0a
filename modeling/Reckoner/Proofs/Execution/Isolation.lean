import Reckoner.Proofs.Evaluation.Agreement
import Reckoner.Proofs.Execution.Completion

/-! What can influence a program. It depends on the names that it mentions and on whether those
that it declares are bound in the innermost scope, and on nothing else that is bound anywhere.
-/

namespace Reckoner

/-- The names that a statement mentions in its expression. -/
def Statement.mentions : Statement → List String
  | expression value _ => value.mentions
  | declaration _ initializer _ => initializer.mentions

/-- The names that a statement declares, of which there is one at most. -/
def Statement.declaredNames : Statement → List String
  | expression .. => []
  | declaration name _ _ => [name]

/-- The names that a program mentions in its expressions, in order. -/
def Program.mentions (program : Program) : List String :=
  program.flatMap Statement.mentions

/-- The names that a program declares, in order. -/
def Program.declaredNames (program : Program) : List String :=
  program.flatMap Statement.declaredNames

/-- Two executions are alike if they come to the same outcome with the same log, and have added
the same entries to the innermost scopes of the environments they began in.
-/
structure Execution.Alike (env other : Environment) (first second : Execution) : Prop where
  result : first.result = second.result
  log : first.log = second.log
  grows
    : ∃ added, env.GrowsBy added first.environment ∧ other.GrowsBy added second.environment

variable {env other : Environment}

/-- A statement is executed alike where the names agree that it mentions and declares. -/
theorem Statement.execute_alike {statement : Statement}
    (agree : env.AgreesOn other statement.mentions statement.declaredNames)
    : Execution.Alike env other (statement.execute env) (statement.execute other) := by
  have same : (statement.execute env).result = (statement.execute other).result
      ∧ (statement.execute env).log = (statement.execute other).log := by
    cases statement with
    | expression value line =>
        simp only [execute, Expr.evaluate_congr agree.lookup, and_self]
    | declaration name initializer line =>
        have bound := agree.containsLocal name List.mem_cons_self
        simp only [execute, bound, Expr.evaluate_congr agree.lookup]
        split
        · simp only [and_self]
        · cases (initializer.evaluate other).result <;> simp only [and_self]
  refine ⟨same.1, same.2, ?_⟩
  cases outcome : (statement.execute env).result with
  | error error =>
      rw [environment_execute_of_error outcome,
        environment_execute_of_error (same.1.symm.trans outcome)]
      exact ⟨[], .refl env, .refl other⟩
  | ok value =>
      exact ⟨_, growsBy_of_execute_ok outcome,
        growsBy_of_execute_ok (same.1.symm.trans outcome)⟩

namespace Program

/-- Statements are executed alike behind executions that are alike, by induction on them: what
the first one adds to both environments leaves them in agreement.
-/
theorem executeFrom_alike {program : Program}
    (agree : env.AgreesOn other program.mentions program.declaredNames) (last : Value)
    (logged : List LogRecord)
    : Execution.Alike env other (executeFrom env last logged program)
        (executeFrom other last logged program) := by
  induction program generalizing env other last logged with
  | nil => exact ⟨rfl, rfl, [], .refl env, .refl other⟩
  | cons statement rest ih =>
      rw [mentions, declaredNames, List.flatMap_cons, List.flatMap_cons] at agree
      obtain ⟨result, log, added, grows, grows'⟩ := Statement.execute_alike
        (agree.mono (List.subset_append_left ..) (List.subset_append_left ..))
      simp only [executeFrom, result, log]
      cases (statement.execute other).result with
      | error error => exact ⟨rfl, rfl, added, grows, grows'⟩
      | ok value =>
          have later : (statement.execute env).environment.AgreesOn
              (statement.execute other).environment (mentions rest) (declaredNames rest) :=
            (agree.grow grows grows').mono (List.subset_append_right ..)
              (List.subset_append_right ..)
          obtain ⟨results, logs, more, growsOn, growsOn'⟩ := ih later value _
          exact ⟨results, logs, added ++ more, grows.trans growsOn, grows'.trans growsOn'⟩

/-- Bindings that a program has nothing to do with cannot influence it. Where two environments
agree on the names that it mentions and on which of those that it declares are bound in the
innermost scope, it comes to the same value or the same error and adds the same entries to the
innermost scopes, also if it fails midway, however else the environments differ.
-/
theorem execute_ignores_others {program : Program}
    (agree : env.AgreesOn other program.mentions program.declaredNames)
    : Execution.Alike env other (program.execute env) (program.execute other) :=
  executeFrom_alike agree .null []

/-- A name is bound in an outer scope and, elsewhere, in the only one: the program copies it and
fails behind that, and both environments have the copy.
-/
theorem execute_ignores_others_failed_program
    : let program : Program :=
        [.declaration "a" (.reference "x" 1) 1,
          .declaration "b" (.binary (.reference "a" 2) .sub (.reference "y" 3) 2) 2]
      let env : Environment :=
        { innermost := [("z", .null)], outer := [[("x", .number (.infinite true))]] }
      let other : Environment :=
        { innermost := [("x", .number (.infinite true)), ("w", .null)], outer := [] }
      env.AgreesOn other program.mentions program.declaredNames
      ∧ Execution.Alike env other (program.execute env) (program.execute other)
      ∧ (program.execute other).result = .error (.unknownVariable "y" 3)
      ∧ (program.execute other).environment = other.bind "a" (.number (.infinite true)) := by
  intro program env other
  have agree : env.AgreesOn other program.mentions program.declaredNames := by
    constructor
    · change ∀ name ∈ ["x", "a", "y"], env.lookup name = other.lookup name
      simp only [List.forall_mem_cons]
      exact ⟨rfl, rfl, rfl, by simp⟩
    · change ∀ name ∈ ["a", "b"], env.containsLocal name = other.containsLocal name
      simp only [List.forall_mem_cons]
      exact ⟨rfl, rfl, by simp⟩
  exact ⟨agree, execute_ignores_others agree, by decide +kernel, by decide +kernel⟩

end Program
end Reckoner
