import Reckoner.Program.Execute

/-! Programs one after another. A program that ends hands its environment, its value and its
log to what follows, and one that fails leaves nothing to follow.
-/

namespace Reckoner

namespace Program

/-- What a program does does not depend on the log before it, and on the value before it only
if it is empty. Witness: induction on the statements, each of which gives a value.
-/
theorem executeFrom_eq (env : Environment) (last : Value) (logged : List LogRecord)
    (program : Program)
    : executeFrom env last logged program
      = { execute env program with
          result := (execute env program).result.map fun value =>
            if program = [] then last else value
          log := logged.reverse ++ (execute env program).log } := by
  unfold execute
  induction program generalizing env last logged with
  | nil => simp [executeFrom, Except.map]
  | cons statement rest ih =>
      simp only [executeFrom]
      cases (statement.execute env).result with
      | error error => simp [Except.map]
      | ok value =>
          simp only
          rw [ih _ _ (_ ++ logged), ih _ _ (_ ++ [])]
          cases (executeFrom _ _ _ rest).result <;> simp [Except.map]

/-- A statement in front of others is executed first, and the others follow if it ends. -/
theorem execute_cons (env : Environment) (statement : Statement) (rest : Program)
    : let done := statement.execute env
      let others := execute done.environment rest
      (execute env (statement :: rest)).log
          = done.log ++ (match done.result with | .ok _ => others.log | .error _ => [])
      ∧ (execute env (statement :: rest)).environment
          = match done.result with
            | .ok _ => others.environment
            | .error _ => done.environment := by
  intro done others
  rw [execute, executeFrom]
  cases (statement.execute env).result with
  | error error => simp [done]
  | ok value => simp [done, others, executeFrom_eq]

/-- The execution of two programs in a row: the second one follows if the first has ended
with a value, which stays the last value if the second is empty.
-/
theorem execute_append (env : Environment) (first second : Program)
    : execute env (first ++ second)
      = match (execute env first).result with
        | .error _ => execute env first
        | .ok value =>
            executeFrom (execute env first).environment value
              (execute env first).log.reverse second := by
  unfold execute
  generalize Value.null = last
  generalize ([] : List LogRecord) = logged
  induction first generalizing env last logged with
  | nil => simp [executeFrom]
  | cons statement rest ih =>
      simp only [List.cons_append, executeFrom]
      cases (statement.execute env).result with
      | error error => rfl
      | ok value => exact ih _ _ _

end Program
end Reckoner
