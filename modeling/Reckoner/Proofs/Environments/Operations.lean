import Mathlib.Data.List.Induction
import Reckoner.Proofs.Execution.Completion

/-! What can be done to environments, one operation after another. Operations other than those
on scopes touch the innermost scope alone, and bind there nothing but what they declare.
-/

namespace Reckoner

-----------------------------------------------------------------------------------------
-- Declarations that take effect
-----------------------------------------------------------------------------------------

/-- A statement declares a name in an environment if it is a declaration of it that ends. -/
def Statement.Declares (env : Environment) (statement : Statement) (name : String) : Prop :=
  ∃ initializer line value,
    statement = .declaration name initializer line
    ∧ (statement.execute env).result = .ok value

/-- Whether a statement ends or fails, its environment has grown by what it declared. -/
theorem Statement.exists_growsBy_declares (env : Environment) (statement : Statement)
    : ∃ added,
        env.GrowsBy added (statement.execute env).environment
        ∧ ∀ entry ∈ added, statement.Declares env entry.1 := by
  cases outcome : (statement.execute env).result with
  | error error =>
      rw [environment_execute_of_error outcome]
      exact ⟨[], .refl env, by simp⟩
  | ok value =>
      refine ⟨_, growsBy_of_execute_ok outcome, fun entry member => ?_⟩
      cases statement with
      | expression initializer line => cases member
      | declaration name initializer line =>
          obtain rfl := List.mem_singleton.mp member
          exact ⟨initializer, line, value, rfl, outcome⟩

/-- A program declares a name in an environment if one of its statements is a declaration of it
and the execution gets behind that statement.
-/
def Program.Declares (env : Environment) (program : Program) (name : String) : Prop :=
  ∃ i initializer line value,
    program[i]? = some (.declaration name initializer line)
    ∧ (Program.execute env (program.take (i + 1))).result = .ok value

namespace Program

variable {env : Environment} {program : Program}

/-- If a program ends, so does every program that it begins with. -/
theorem exists_ok_of_append {front rest : Program} {value : Value}
    (ended : (execute env (front ++ rest)).result = .ok value)
    : ∃ earlier, (execute env front).result = .ok earlier := by
  rw [execute_append] at ended
  cases first : (execute env front).result with
  | ok earlier => exact ⟨earlier, rfl⟩
  | error error => simp [first] at ended

theorem Declares.append {front rest : Program} {name : String}
    (declares : Declares env front name)
    : Declares env (front ++ rest) name := by
  obtain ⟨i, initializer, line, value, found, ended⟩ := declares
  have inside := (List.getElem?_eq_some_iff.mp found).1
  refine ⟨i, initializer, line, value, ?_, ?_⟩
  · rwa [List.getElem?_append_left inside]
  · rwa [List.take_append_of_le_length inside]

/-- What a program that ends binds is what it declares. -/
theorem declares_of_mem_bindings {values : List Value} {value : Value}
    (ended : (execute env program).result = .ok value) {entry : String × Value}
    (member : entry ∈ bindings program values)
    : Declares env program entry.1 := by
  obtain ⟨⟨statement, yielded⟩, paired, bound⟩ := List.mem_flatMap.mp member
  obtain ⟨i, inside, found⟩ := List.getElem_of_mem (List.of_mem_zip paired).1
  obtain ⟨earlier, endedThere⟩ : ∃ earlier,
      (execute env (program.take (i + 1))).result = .ok earlier := by
    rw [← program.take_append_drop (i + 1)] at ended
    exact exists_ok_of_append ended
  cases statement with
  | expression initializer line => cases bound
  | declaration name initializer line =>
      obtain rfl := List.mem_singleton.mp bound
      exact ⟨i, initializer, line, earlier, List.getElem?_eq_some_iff.mpr ⟨inside, found⟩,
        endedThere⟩

/-- Whether a program ends or fails, its environment has grown by what it declared. -/
theorem exists_growsBy_declares (env : Environment) (program : Program)
    : ∃ added,
        env.GrowsBy added (execute env program).environment
        ∧ ∀ entry ∈ added, Declares env program entry.1 := by
  cases outcome : (execute env program).result with
  | ok value =>
      obtain ⟨values, -, grows⟩ := exists_yields outcome
      exact ⟨_, grows, fun entry member => declares_of_mem_bindings outcome member⟩
  | error error =>
      obtain ⟨i, fails⟩ := exists_failsAt outcome
      obtain ⟨_, _, -, ended, -⟩ := id fails
      obtain ⟨values, -, grows⟩ := fails.exists_yields
      refine ⟨_, grows, fun entry member => ?_⟩
      have declares := declares_of_mem_bindings ended member
      rw [← program.take_append_drop i]
      exact declares.append

end Program

-----------------------------------------------------------------------------------------
-- Operations
-----------------------------------------------------------------------------------------

namespace Environment

/-- What can be done to an environment. Statements and programs may end or fail. -/
inductive Operation
  | pushScope
  | popScope
  | declare (name : String) (value : Value)
  | evaluate (statement : Statement)
  | execute (program : Program)
  deriving DecidableEq

/-- The environment after an operation, whatever becomes of it. -/
def perform (env : Environment) : Operation → Environment
  | .pushScope => env.pushScope
  | .popScope => env.popScope.2
  | .declare name value => (env.declare name value).2
  | .evaluate statement => (statement.execute env).environment
  | .execute program => (program.execute env).environment

/-- The environment after operations in order. -/
def performAll (env : Environment) (operations : List Operation) : Environment :=
  operations.foldl perform env

theorem performAll_concat (env : Environment) (operations : List Operation)
    (operation : Operation)
    : env.performAll (operations ++ [operation])
      = (env.performAll operations).perform operation := by
  rw [performAll, List.foldl_append]
  rfl

namespace Operation

/-- An operation declares a name in an environment if it binds the name there. -/
def Declares (env : Environment) (name : String) : Operation → Prop
  | pushScope | popScope => False
  | declare declared _ => declared = name
  | evaluate statement => statement.Declares env name
  | execute program => program.Declares env name

/-- Operations that are not on scopes leave the outer scopes alone, and bind in the innermost
one nothing but what they declare.
-/
theorem perform_frame {operation : Operation} (stays : operation ≠ .pushScope)
    (stays' : operation ≠ .popScope) (env : Environment)
    : (env.perform operation).outer = env.outer
      ∧ ∀ name, (env.perform operation).localValue? name ≠ none →
        operation.Declares env name ∨ env.localValue? name ≠ none := by
  cases operation with
  | pushScope => exact absurd rfl stays
  | popScope => exact absurd rfl stays'
  | declare declared value =>
      refine ⟨rfl, fun name bound => ?_⟩
      simp only [perform, Environment.declare, bind, localValue?, Scope.lookup_insert] at bound
      by_cases same : declared = name
      · exact .inl same
      · rw [if_neg (Ne.symm same)] at bound
        exact .inr bound
  | evaluate statement =>
      obtain ⟨added, grows, declares⟩ := Statement.exists_growsBy_declares env statement
      refine ⟨grows.outer, fun name bound => (grows.exists_entry_or bound).imp_left ?_⟩
      rintro ⟨entry, member, rfl⟩
      exact declares entry member
  | execute program =>
      obtain ⟨added, grows, declares⟩ := Program.exists_growsBy_declares env program
      refine ⟨grows.outer, fun name bound => (grows.exists_entry_or bound).imp_left ?_⟩
      rintro ⟨entry, member, rfl⟩
      exact declares entry member

end Operation
end Environment
end Reckoner
