import Mathlib.Data.List.Infix
import Reckoner.Proofs.Environments.Operations

/-! A scope opened before operations and closed behind them leaves no trace of them, as long as
they close no scope that they have not opened. What they declare is seen only from inside.
-/

namespace Reckoner.Environment

-----------------------------------------------------------------------------------------
-- Operations that close only what they open
-----------------------------------------------------------------------------------------

/-- Operations stay inside the scopes they are performed in if they never have closed more
scopes than they have opened.
-/
def StaysInside (operations : List Operation) : Prop :=
  ∀ front, front <+: operations → front.count .popScope ≤ front.count .pushScope

/-- Operations are balanced if they stay inside and have closed in the end what they opened. -/
structure IsBalanced (operations : List Operation) : Prop where
  inside : StaysInside operations
  closed : operations.count .popScope = operations.count .pushScope

/-- What is done up to some operation stays inside if everything does. -/
theorem StaysInside.mono {front operations : List Operation} (inside : StaysInside operations)
    (isPrefix : front <+: operations)
    : StaysInside front :=
  fun earlier isEarlier => inside earlier (isEarlier.trans isPrefix)

/-- One more operation stays inside if not more scopes are closed behind it than opened. -/
theorem StaysInside.concat {operations : List Operation} {operation : Operation}
    (inside : StaysInside operations)
    (counts : (operations ++ [operation]).count .popScope
      ≤ (operations ++ [operation]).count .pushScope)
    : StaysInside (operations ++ [operation]) := by
  intro front isPrefix
  obtain rfl | earlier := List.prefix_concat_iff.mp isPrefix
  · exact counts
  · exact inside front earlier

-----------------------------------------------------------------------------------------
-- Declarations in scopes that are still open
-----------------------------------------------------------------------------------------

/-- One of the operations declared a name, and those behind it stay inside the scope it did so
in, with so many scopes opened in it and not closed.
-/
def DeclaredAt (env : Environment) (operations : List Operation) (level : Nat) (name : String)
    : Prop :=
  ∃ before operation after,
    operations = before ++ operation :: after
    ∧ operation.Declares (env.performAll before) name
    ∧ StaysInside after
    ∧ after.count .pushScope = after.count .popScope + level

/-- One of the operations declared a name, in a scope that has not been closed since. -/
def DeclaredInOpenScope (env : Environment) (operations : List Operation) (name : String)
    : Prop :=
  ∃ before operation after,
    operations = before ++ operation :: after
    ∧ operation.Declares (env.performAll before) name
    ∧ StaysInside after

namespace DeclaredAt

variable {env : Environment} {operations : List Operation} {operation : Operation}
  {level next : Nat} {name : String}

theorem declaredInOpenScope (declared : DeclaredAt env operations level name)
    : DeclaredInOpenScope env operations name := by
  obtain ⟨before, operation, after, parts, declares, inside, -⟩ := declared
  exact ⟨before, operation, after, parts, declares, inside⟩

/-- What the last operation declares, it declares in the innermost scope. -/
theorem last (declares : operation.Declares (env.performAll operations) name)
    : DeclaredAt env (operations ++ [operation]) 0 name := by
  refine ⟨operations, operation, [], rfl, declares, ?_, rfl⟩
  intro front isPrefix
  rw [List.prefix_nil.mp isPrefix]
  exact Nat.le_refl _

/-- A declaration stays in its scope while others are opened and closed inside it. -/
theorem concat (declared : DeclaredAt env operations level name)
    (levels : level + [operation].count .pushScope = next + [operation].count .popScope)
    : DeclaredAt env (operations ++ [operation]) next name := by
  obtain ⟨before, declaring, after, rfl, declares, inside, counts⟩ := declared
  have total : (after ++ [operation]).count .pushScope
      = (after ++ [operation]).count .popScope + next := by
    simp only [List.count_append]
    omega
  exact ⟨before, declaring, after ++ [operation], by simp, declares,
    inside.concat (by omega), total⟩

end DeclaredAt

-----------------------------------------------------------------------------------------
-- What is true after every operation
-----------------------------------------------------------------------------------------

/-- The scopes after a scope was opened in an environment and operations were performed inside:
on those of the environment lie as many as were opened and not closed, which bind nothing but
what was declared in them.
-/
structure Encloses (env : Environment) (operations : List Operation) (opened : List Scope)
    : Prop where
  scopes : (env.pushScope.performAll operations).scopes = opened ++ env.scopes
  count : opened.length + operations.count .popScope = operations.count .pushScope + 1
  declared : ∀ level scope name, opened[level]? = some scope → scope.lookup name ≠ none →
    DeclaredAt env.pushScope operations level name

/-- Closing the innermost scope leaves the environment of the others. -/
theorem popScope_of_scopes {inside env : Environment} {top : Scope}
    (scopes : inside.scopes = top :: env.scopes)
    : inside.popScope = (true, env) := by
  obtain ⟨innermost, outer⟩ := inside
  obtain rfl : outer = env.scopes := (List.cons.inj scopes).2
  rfl

namespace Encloses

variable {env : Environment} {operations : List Operation} {operation : Operation}
  {top : Scope} {opened : List Scope}

theorem nil (env : Environment)
    : Encloses env [] [[]] := by
  refine ⟨rfl, rfl, fun level scope name found bound => ?_⟩
  obtain rfl := List.mem_singleton.mp (List.mem_of_getElem? found)
  exact absurd rfl bound

/-- Opening a scope moves all others one further in. -/
theorem pushScope (encloses : Encloses env operations opened)
    : Encloses env (operations ++ [.pushScope]) ([] :: opened) := by
  refine ⟨?_, ?_, fun level scope name found bound => ?_⟩
  · rw [performAll_concat]
    exact congrArg ([] :: ·) encloses.scopes
  · have opens : [Operation.pushScope].count .pushScope = 1 := rfl
    have closes : [Operation.pushScope].count .popScope = 0 := rfl
    have count := encloses.count
    simp only [List.length_cons, List.count_append]
    omega
  · cases level with
    | zero =>
        obtain rfl := Option.some.inj found
        exact absurd rfl bound
    | succ level => exact (encloses.declared level scope name found bound).concat rfl

/-- Closing a scope that was opened inside closes the last one that was. -/
theorem popScope {next : Scope} (encloses : Encloses env operations (top :: next :: opened))
    : Encloses env (operations ++ [.popScope]) (next :: opened) := by
  refine ⟨?_, ?_, fun level scope name found bound => ?_⟩
  · have closed : (env.pushScope.performAll operations).popScope
        = (true, ⟨next, opened ++ env.scopes⟩) :=
      popScope_of_scopes encloses.scopes
    rw [performAll_concat, perform, closed]
    rfl
  · have opens : [Operation.popScope].count .pushScope = 0 := rfl
    have closes : [Operation.popScope].count .popScope = 1 := rfl
    have count := encloses.count
    simp only [List.length_cons, List.count_append] at count ⊢
    omega
  · exact (encloses.declared (level + 1) scope name found bound).concat rfl

/-- Every other operation touches the innermost scope alone. -/
theorem other (encloses : Encloses env operations (top :: opened))
    (stays : operation ≠ .pushScope) (stays' : operation ≠ .popScope)
    : Encloses env (operations ++ [operation])
        ((env.pushScope.performAll (operations ++ [operation])).innermost :: opened) := by
  have unopened : [operation].count .pushScope = 0 := by
    simpa [List.count_eq_zero] using stays.symm
  have unclosed : [operation].count .popScope = 0 := by
    simpa [List.count_eq_zero] using stays'.symm
  obtain ⟨rfl, below⟩ := List.cons.inj encloses.scopes
  obtain ⟨frame, declares⟩ :=
    operation.perform_frame stays stays' (env.pushScope.performAll operations)
  rw [← performAll_concat] at frame declares
  refine ⟨?_, ?_, fun level scope name found bound => ?_⟩
  · rw [Environment.scopes, frame, below]
    rfl
  · have count := encloses.count
    simp only [List.count_append, unopened, unclosed, List.length_cons] at count ⊢
    exact count
  · have levels (level : Nat)
        : level + [operation].count .pushScope = level + [operation].count .popScope := by
      rw [unopened, unclosed]
    cases level with
    | zero =>
        obtain rfl := Option.some.inj found
        -- What the innermost scope binds is declared by this operation, or was there before it.
        obtain new | old := declares name bound
        · exact .last new
        · exact (encloses.declared 0 _ name rfl old).concat (levels 0)
    | succ level =>
        exact (encloses.declared (level + 1) scope name found bound).concat (levels _)

/-- An operation that stays inside leaves the scopes of the environment alone: one that closes
a scope is performed where at least two lie on them, any other where at least one does.
-/
theorem step (encloses : Encloses env operations opened)
    (inside : StaysInside (operations ++ [operation]))
    : ∃ opened, Encloses env (operations ++ [operation]) opened := by
  have count := encloses.count
  have before := inside _ (List.prefix_append operations [operation])
  obtain ⟨top, opened, rfl⟩ := List.exists_cons_of_length_pos (show 0 < opened.length by omega)
  by_cases opens : operation = .pushScope
  · subst opens
    exact ⟨_, encloses.pushScope⟩
  by_cases closes : operation = .popScope
  · subst closes
    have behind := inside _ (List.prefix_refl _)
    have opens : [Operation.popScope].count .pushScope = 0 := rfl
    have closes : [Operation.popScope].count .popScope = 1 := rfl
    simp only [List.length_cons, List.count_append] at count behind
    obtain ⟨next, opened, rfl⟩ :=
      List.exists_cons_of_length_pos (show 0 < opened.length by omega)
    exact ⟨_, encloses.popScope⟩
  · exact ⟨_, encloses.other opens closes⟩

/-- Whatever operations stay inside, by induction on them from the last one. -/
theorem run (env : Environment) {operations : List Operation} (inside : StaysInside operations)
    : ∃ opened, Encloses env operations opened := by
  induction operations using List.reverseRecOn with
  | nil => exact ⟨_, .nil env⟩
  | append_singleton operations operation ih =>
      obtain ⟨opened, encloses⟩ := ih (inside.mono (List.prefix_append _ _))
      exact encloses.step inside

/-- What was not declared inside is seen from there as from outside. -/
theorem lookup_eq (encloses : Encloses env operations opened) {name : String}
    (undeclared : ¬ DeclaredInOpenScope env.pushScope operations name)
    : (env.pushScope.performAll operations).lookup name = env.lookup name := by
  have unbound : opened.findSome? (·.lookup name) = none := by
    refine List.findSome?_eq_none_iff.mpr fun scope member => ?_
    obtain ⟨level, inRange, rfl⟩ := List.getElem_of_mem member
    by_contra bound
    exact undeclared (encloses.declared level _ name
      (List.getElem?_eq_getElem inRange) bound).declaredInOpenScope
  rw [lookup, encloses.scopes, List.findSome?_append, unbound]
  rfl

end Encloses

/-- A scope that is opened in an environment, has balanced operations performed in it and is
closed leaves no trace: closing it succeeds and gives back the environment. At any time in
between, a name is what it was before unless it was declared in a scope opened since and not
closed. Witness: the invariant of all operations that stay inside, which for balanced ones
leaves just one scope to close.
-/
theorem popScope_performAll_pushScope (env : Environment) {operations : List Operation}
    (balanced : IsBalanced operations)
    : (env.pushScope.performAll operations).popScope = (true, env)
      ∧ ∀ front, front <+: operations → ∀ name,
        ¬ DeclaredInOpenScope env.pushScope front name →
          (env.pushScope.performAll front).lookup name = env.lookup name := by
  constructor
  · obtain ⟨opened, encloses⟩ := Encloses.run env balanced.inside
    have count := encloses.count
    obtain ⟨top, rfl⟩ := List.length_eq_one_iff.mp
      (show opened.length = 1 by have := balanced.closed; omega)
    exact popScope_of_scopes encloses.scopes
  · intro front isPrefix name undeclared
    obtain ⟨opened, encloses⟩ := Encloses.run env (balanced.inside.mono isPrefix)
    exact encloses.lookup_eq undeclared

/-- Over two scopes, one name is declared anew, and another by a program that fails behind it,
in a scope of its own: once that scope is closed, the other name is what it was.
-/
theorem popScope_performAll_pushScope_failed_program
    : let env : Environment := { innermost := [("a", .null)], outer := [[("b", .null)]] }
      let front : List Operation :=
        [.declare "a" (.number .nan), .pushScope,
          .execute [.declaration "b" (.reference "a" 1) 1, .expression (.reference "c" 1) 1],
          .popScope]
      let operations := front ++ [.evaluate (.declaration "c" (.reference "a" 1) 1)]
      IsBalanced operations
      ∧ (env.pushScope.performAll operations).popScope = (true, env)
      ∧ (env.pushScope.performAll (front.take 3)).lookup "b" = some (.number .nan)
      ∧ ¬ DeclaredInOpenScope env.pushScope front "b"
      ∧ (env.pushScope.performAll front).lookup "b" = some .null := by
  intro env front operations
  have balanced : IsBalanced operations := by
    refine ⟨fun earlier isPrefix => ?_, by decide⟩
    have counts : ∀ earlier ∈ operations.inits,
        earlier.count .popScope ≤ earlier.count .pushScope := by
      decide
    exact counts earlier ((List.mem_inits earlier operations).mpr isPrefix)
  have undeclared : ¬ DeclaredInOpenScope env.pushScope front "b" := by
    rintro ⟨before, operation, after, parts, declares, inside⟩
    have parts : [_, _, _, _] = before ++ operation :: after := parts
    -- Of the four operations, only the program declares the name, and its scope is closed.
    rcases before with _ | ⟨_, _ | ⟨_, _ | ⟨_, _ | ⟨_, before⟩⟩⟩⟩ <;>
      simp only [List.nil_append, List.cons_append, List.cons.injEq, List.nil_eq,
        List.append_eq_nil_iff, reduceCtorEq, and_false] at parts
    · obtain ⟨rfl, rfl⟩ := parts
      have same : "a" = "b" := declares
      exact absurd same (by decide)
    · obtain ⟨-, rfl, rfl⟩ := parts
      exact declares
    · obtain ⟨-, -, rfl, rfl⟩ := parts
      exact absurd (inside _ (List.prefix_refl _)) (by decide)
    · obtain ⟨-, -, -, rfl, rfl⟩ := parts
      exact declares
  obtain ⟨closed, kept⟩ := popScope_performAll_pushScope env balanced
  refine ⟨balanced, closed, by decide +kernel, undeclared, ?_⟩
  rw [kept front (List.prefix_append _ _) "b" undeclared]
  rfl

end Reckoner.Environment
