import Mathlib.Data.List.Induction
import Reckoner.Proofs.Environments.Growth
import Reckoner.Proofs.Execution.Sequence

/-! What the statements that completed leave behind. A statement that fails changes nothing,
and one that ends binds what it declares; so a program that fails leaves the environment in
front of its failing statement, and one that ends leaves all its declarations.
-/

namespace Reckoner

-----------------------------------------------------------------------------------------
-- Single statements
-----------------------------------------------------------------------------------------

namespace Statement

/-- What a statement binds that ends with a value. -/
def bindings (value : Value) : Statement → Scope
  | expression .. => []
  | declaration name _ _ => [(name, value)]

variable {env : Environment} {statement : Statement}

/-- A declaration of a name that the innermost scope binds fails, whatever its initializer. -/
theorem execute_declaration_of_containsLocal {name : String} (bound : env.containsLocal name)
    (initializer : Expr) (line : Nat)
    : (declaration name initializer line).execute env
      = { result := .error (.alreadyDeclared name line), environment := env, log := [] } := by
  rw [execute, if_pos bound]

/-- A declaration of a name that the innermost scope does not bind comes to what its initializer
comes to, and binds the name to that if it is a value.
-/
theorem execute_declaration_of_not_containsLocal {name : String}
    (unbound : env.containsLocal name = false) (initializer : Expr) (line : Nat)
    : let applied := (initializer.applications env).map LogRecord.applied
      (declaration name initializer line).execute env
        = match initializer.denote env with
          | .error error => { result := .error error, environment := env, log := applied }
          | .ok value =>
              { result := .ok value
                environment := env.bind name value
                log := applied ++ [.declared name value] } := by
  intro applied
  simp only [execute, unbound, Expr.evaluate_eq, Bool.false_eq_true, if_false]
  cases initializer.denote env <;> rfl

/-- A statement that fails leaves the environment as it was. -/
theorem environment_execute_of_error {error : EvalError}
    (failed : (statement.execute env).result = .error error)
    : (statement.execute env).environment = env := by
  cases statement with
  | expression value line => rfl
  | declaration name initializer line =>
      cases bound : env.containsLocal name with
      | true => rw [execute_declaration_of_containsLocal bound]
      | false =>
          rw [execute_declaration_of_not_containsLocal bound] at failed ⊢
          cases evaluated : initializer.denote env with
          | error error => rfl
          | ok value => simp [evaluated] at failed

/-- A statement that ends has bound what it declares to its value, and the name was new. -/
theorem growsBy_of_execute_ok {value : Value} (ended : (statement.execute env).result = .ok value)
    : env.GrowsBy (statement.bindings value) (statement.execute env).environment := by
  cases statement with
  | expression initializer line => exact .refl env
  | declaration name initializer line =>
      cases bound : env.containsLocal name with
      | true => simp [execute_declaration_of_containsLocal bound] at ended
      | false =>
          have absent : env.localValue? name = none := by
            simpa [Environment.containsLocal] using bound
          rw [execute_declaration_of_not_containsLocal bound] at ended ⊢
          cases evaluated : initializer.denote env with
          | error error => simp [evaluated] at ended
          | ok found =>
              simp only [evaluated, Except.ok.injEq] at ended ⊢
              exact ended ▸ .bind absent found

end Statement

-----------------------------------------------------------------------------------------
-- Programs, one statement at a time
-----------------------------------------------------------------------------------------

namespace Program

variable {env : Environment} {program before : Program} {statement : Statement} {value : Value}

/-- What a program binds whose statements end with the given values, in their order. -/
def bindings (program : Program) (values : List Value) : Scope :=
  (program.zip values).flatMap fun (statement, value) => statement.bindings value

/-- The statements of a program yield the given values, each in the environment that those
before it leave.
-/
def Yields (env : Environment) (program : Program) (values : List Value) : Prop :=
  values.length = program.length
  ∧ ∀ (i : Nat) (statement : Statement), program[i]? = some statement →
    ∃ value : Value, values[i]? = some value
      ∧ (statement.execute (execute env (program.take i)).environment).result = .ok value

/-- A program fails at an index if the statements before it end and the one there fails. -/
def FailsAt (env : Environment) (program : Program) (error : EvalError) (i : Nat) : Prop :=
  ∃ (statement : Statement) (value : Value),
    program[i]? = some statement
    ∧ (execute env (program.take i)).result = .ok value
    ∧ (statement.execute (execute env (program.take i)).environment).result = .error error

/-- A failing statement behind statements that end fails the whole, with its own error and the
environment it found; nothing behind it is executed.
-/
theorem execute_append_cons_of_error {error : EvalError}
    (ended : (execute env before).result = .ok value)
    (failed : (statement.execute (execute env before).environment).result = .error error)
    (rest : Program)
    : (execute env (before ++ statement :: rest)).result = .error error
      ∧ (execute env (before ++ statement :: rest)).environment
        = (execute env before).environment := by
  have unchanged := Statement.environment_execute_of_error failed
  simp only [execute_append, ended, executeFrom, failed, unchanged, and_self]

/-- A statement that ends behind statements that end gives its value and environment. -/
theorem execute_concat_of_ok {last : Value} (ended : (execute env before).result = .ok value)
    (ends : (statement.execute (execute env before).environment).result = .ok last)
    : (execute env (before ++ [statement])).result = .ok last
      ∧ (execute env (before ++ [statement])).environment
        = (statement.execute (execute env before).environment).environment := by
  simp only [execute_append, ended, executeFrom, ends, and_self]

/-- Whether a program fails at an index does not depend on what is behind it. -/
theorem failsAt_append_iff {error : EvalError} {i : Nat} (inside : i < before.length)
    (rest : Program)
    : FailsAt env (before ++ rest) error i ↔ FailsAt env before error i := by
  rw [FailsAt, FailsAt, List.getElem?_append_left inside,
    List.take_append_of_le_length (Nat.le_of_lt inside)]

namespace FailsAt

variable {error other : EvalError} {i j : Nat}

/-- A program that fails at an index does what the statements in front of it do, and fails. -/
theorem execute_eq (fails : FailsAt env program error i)
    : (execute env program).result = .error error
      ∧ (execute env program).environment = (execute env (program.take i)).environment := by
  obtain ⟨statement, value, found, ended, failed⟩ := fails
  have split : program.take i ++ statement :: program.drop (i + 1) = program := by
    obtain ⟨inside, rfl⟩ := List.getElem?_eq_some_iff.mp found
    rw [← List.drop_eq_getElem_cons inside, List.take_append_drop]
  have whole := execute_append_cons_of_error ended failed (program.drop (i + 1))
  rwa [split] at whole

/-- A program fails nowhere in front of an index where it fails, since the statements up to
there end.
-/
theorem not_lt (first : FailsAt env program error i) (second : FailsAt env program other j)
    : ¬ i < j := by
  intro earlier
  obtain ⟨statement, value, found, ended, -⟩ := second
  have inside : i < (program.take j).length := by
    have bound := (List.getElem?_eq_some_iff.mp found).1
    rw [List.length_take]
    omega
  rw [← program.take_append_drop j] at first
  have failed := ((failsAt_append_iff inside _).mp first).execute_eq.1
  rw [ended] at failed
  cases failed

theorem unique (first : FailsAt env program error i) (second : FailsAt env program other j)
    : i = j :=
  Nat.le_antisymm (Nat.not_lt.mp (second.not_lt first)) (Nat.not_lt.mp (first.not_lt second))

end FailsAt

/-- A program that fails does so at an index. Witness: induction on the statements from the
last one; either those before it fail already, or it does itself.
-/
theorem exists_failsAt {error : EvalError} (failed : (execute env program).result = .error error)
    : ∃ i, FailsAt env program error i := by
  induction program using List.reverseRecOn with
  | nil => cases failed
  | append_singleton before statement ih =>
      cases front : (execute env before).result with
      | error earlier =>
          rw [execute_append, front] at failed
          obtain ⟨i, fails⟩ := ih failed
          have inside : i < before.length := by
            obtain ⟨_, _, found, -⟩ := fails
            exact (List.getElem?_eq_some_iff.mp found).1
          exact ⟨i, (failsAt_append_iff inside _).mpr fails⟩
      | ok value =>
          refine ⟨before.length, statement, value, by simp, by simpa using front, ?_⟩
          cases ends : (statement.execute (execute env before).environment).result with
          | error found =>
              rw [(execute_append_cons_of_error front ends []).1] at failed
              simpa [ends] using failed
          | ok last =>
              rw [(execute_concat_of_ok front ends).1] at failed
              cases failed

theorem Yields.concat {values : List Value} {last : Value} (yields : Yields env before values)
    (ends : (statement.execute (execute env before).environment).result = .ok last)
    : Yields env (before ++ [statement]) (values ++ [last]) := by
  obtain ⟨length, each⟩ := yields
  refine ⟨by simp [length], ?_⟩
  intro i current found
  rcases Nat.lt_or_ge i before.length with inside | outside
  · rw [List.getElem?_append_left inside] at found
    rw [List.getElem?_append_left (length ▸ inside),
      List.take_append_of_le_length (Nat.le_of_lt inside)]
    exact each i current found
  · have bound := (List.getElem?_eq_some_iff.mp found).1
    obtain rfl : i = before.length := by
      rw [List.length_append, List.length_singleton] at bound
      omega
    obtain rfl : statement = current := by simpa using found
    exact ⟨last, by simp [← length], by simpa using ends⟩

theorem bindings_concat {values : List Value} (length : values.length = before.length)
    (last : Value)
    : bindings (before ++ [statement]) (values ++ [last])
      = bindings before values ++ statement.bindings last := by
  rw [bindings, List.zip_append length.symm, List.flatMap_append]
  simp [bindings]

/-- A program that ends has grown its environment by its declarations, with the values that
its statements yield. Witness: induction on the statements from the last one.
-/
theorem exists_yields (ended : (execute env program).result = .ok value)
    : ∃ values, Yields env program values
      ∧ env.GrowsBy (bindings program values) (execute env program).environment := by
  induction program using List.reverseRecOn generalizing value with
  | nil => exact ⟨[], ⟨rfl, by simp⟩, .refl env⟩
  | append_singleton before statement ih =>
      cases front : (execute env before).result with
      | error error =>
          rw [execute_append, front] at ended
          cases front.symm.trans ended
      | ok earlier =>
          obtain ⟨values, yields, grows⟩ := ih front
          cases ends : (statement.execute (execute env before).environment).result with
          | error error =>
              rw [(execute_append_cons_of_error front ends []).1] at ended
              cases ended
          | ok last =>
              refine ⟨values ++ [last], yields.concat ends, ?_⟩
              rw [bindings_concat yields.1, (execute_concat_of_ok front ends).2]
              exact grows.trans (Statement.growsBy_of_execute_ok ends)

/-- A program that fails has grown its environment by the declarations in front of where it
does, with the values that the statements there yield.
-/
theorem FailsAt.exists_yields {error : EvalError} {i : Nat} (fails : FailsAt env program error i)
    : ∃ values, Yields env (program.take i) values
      ∧ env.GrowsBy (bindings (program.take i) values) (execute env program).environment := by
  obtain ⟨statement, value, -, ended, -⟩ := id fails
  obtain ⟨values, yields, grows⟩ := Program.exists_yields ended
  exact ⟨values, yields, fails.execute_eq.2 ▸ grows⟩

/-- Whether a program ends or fails, its environment has grown. -/
theorem exists_growsBy (env : Environment) (program : Program)
    : ∃ added, env.GrowsBy added (execute env program).environment := by
  cases outcome : (execute env program).result with
  | ok value =>
      obtain ⟨values, -, grows⟩ := exists_yields outcome
      exact ⟨_, grows⟩
  | error error =>
      obtain ⟨i, fails⟩ := exists_failsAt outcome
      obtain ⟨values, -, grows⟩ := fails.exists_yields
      exact ⟨_, grows⟩

end Program
end Reckoner
