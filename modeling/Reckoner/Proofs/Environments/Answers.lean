import Mathlib.Data.Set.Card
import Reckoner.Proofs.Environments.History
import Reckoner.Proofs.Environments.Operations

/-! Environments by their history. What was declared, and in which scopes, tells everything
that an environment answers: a name is what it was last declared as in a scope that is still
open, whichever scopes were opened and closed in between.
-/

namespace Reckoner.Environment

/-- What a call does to an environment. -/
def Call.operation : Call → Operation
  | .pushScope => .pushScope
  | .popScope => .popScope
  | .declare name value => .declare name value

/-- The environment that calls make of a new one. -/
def ofCalls (calls : List Call) : Environment :=
  empty.performAll (calls.map Call.operation)

/-- How many of the calls on an environment close a scope, by what they are answered. -/
def closings (env : Environment) : List Call → Nat
  | [] => 0
  | call :: rest =>
      (if call = .popScope ∧ env.popScope.1 then 1 else 0)
        + closings (env.perform call.operation) rest

/-- An environment answers as the history of its calls tells. -/
structure AnswersBy (env : Environment) (calls : List Call) : Prop where
  lookup : ∀ name, IsLatest calls name (survivors calls name) (env.lookup name)
  containsLocal
    : ∀ name, env.containsLocal name ↔ (survivorsAt calls name (openScopes calls)).Nonempty
  declare
    : ∀ name value,
        IsLatest calls name (survivorsAt calls name (openScopes calls))
          (env.declare name value).1
  depth : env.depth = openScopes calls
  depth_add : env.depth + closings empty calls = 1 + calls.count .pushScope
  depth_pos : 1 ≤ env.depth
  popScope : env.popScope.1 ↔ env.depth ≠ 1
  popScope_global : env.depth = 1 → env.popScope.2 = env
  size : {name | env.lookup name ≠ none}.encard = env.size
  isEmpty : env.isEmpty ↔ env.size = 0

variable {calls : List Call} {call : Call} {name : String} {depth time : Nat}

theorem ofCalls_concat (calls : List Call) (call : Call)
    : ofCalls (calls ++ [call]) = (ofCalls calls).perform call.operation := by
  rw [ofCalls, List.map_append, List.map_singleton, performAll_concat, ofCalls]

-----------------------------------------------------------------------------------------
-- What is true after every call
-----------------------------------------------------------------------------------------

/-- An environment has the scopes that its history tells: as many as are open, each with the
latest values declared in it.
-/
structure IsToldBy (env : Environment) (calls : List Call) : Prop where
  depth : env.depth = openScopes calls
  bound
    : ∀ level scope depth name,
        env.scopes[level]? = some scope
        → depth + level = openScopes calls
        → IsLatest calls name (survivorsAt calls name depth) (scope.lookup name)

namespace IsToldBy

variable {env : Environment}

/-- A scope that a call leaves alone is told by the history with that call. -/
theorem bound_concat (told : env.IsToldBy calls) {level : Nat} {scope : Scope}
    (found : env.scopes[level]? = some scope) (level_eq : depth + level = openScopes calls)
    (stays : depth ≤ openScopes (calls ++ [call]))
    (other : depth = openScopes calls → ∀ value, call ≠ .declare name value)
    : IsLatest (calls ++ [call]) name (survivorsAt (calls ++ [call]) name depth)
        (scope.lookup name) := by
  rw [survivorsAt_concat stays other]
  exact (told.bound level scope depth name found level_eq).concat call

theorem empty
    : Environment.empty.IsToldBy [] := by
  refine ⟨rfl, fun level scope depth name found _ => ?_⟩
  obtain rfl := List.mem_singleton.mp (List.mem_of_getElem? found)
  refine Set.eq_empty_of_forall_notMem fun time survives => ?_
  exact Nat.not_lt_zero _ (lt_length_of_mem_survivorsAt survives)

/-- A scope that is opened binds nothing, and the others are one further out. -/
theorem pushScope (told : env.IsToldBy calls)
    : env.pushScope.IsToldBy (calls ++ [.pushScope]) := by
  have count : openScopes (calls ++ [.pushScope]) = openScopes calls + 1 :=
    openScopes_concat calls .pushScope
  refine ⟨?_, fun level scope depth name found level_eq => ?_⟩
  · rw [count, ← told.depth]
    rfl
  · cases level with
    | zero =>
        obtain rfl := Option.some.inj found
        refine Set.eq_empty_of_forall_notMem fun time survives => ?_
        obtain ⟨earlier, -⟩ | ⟨-, same, -⟩ := mem_survivorsAt_concat.mp survives
        · have bound := depth_le_of_mem_survivorsAt earlier
          omega
        · omega
    | succ level => exact told.bound_concat found (by omega) (by omega) (by simp)

/-- A scope that is closed takes its names along, unless it is the global one. -/
theorem popScope (told : env.IsToldBy calls)
    : env.popScope.2.IsToldBy (calls ++ [.popScope]) := by
  have count : openScopes (calls ++ [.popScope]) = max 1 (openScopes calls - 1) :=
    openScopes_concat calls .popScope
  have depth := told.depth
  cases outer : env.outer with
  | nil =>
      have unchanged : env.popScope.2 = env := by rw [Environment.popScope, outer]
      have global : env.depth = 1 := by simp [Environment.depth, scopes, outer]
      rw [unchanged]
      exact ⟨by omega, fun level scope depth name found level_eq =>
        told.bound_concat found (by omega) (by omega) (by simp)⟩
  | cons next rest =>
      have closed : env.popScope.2 = { innermost := next, outer := rest } := by
        rw [Environment.popScope, outer]
      have depth_eq : env.depth = rest.length + 2 := by
        simp [Environment.depth, scopes, outer]
      rw [closed]
      refine ⟨?_, fun level scope depth name found level_eq => ?_⟩
      · simp only [Environment.depth, scopes, List.length_cons]
        omega
      · have found : env.scopes[level + 1]? = some scope := by
          rw [scopes, outer, List.getElem?_cons_succ]
          exact found
        exact told.bound_concat found (by omega) (by omega) (by simp)

/-- A declaration is the latest one of its name in the innermost scope. -/
theorem bind (told : env.IsToldBy calls) (declared : String) (value : Value)
    : (env.bind declared value).IsToldBy (calls ++ [.declare declared value]) := by
  have count : openScopes (calls ++ [.declare declared value]) = openScopes calls :=
    openScopes_concat calls (.declare declared value)
  refine ⟨?_, fun level scope depth name found level_eq => ?_⟩
  · rw [count, ← told.depth]
    rfl
  · cases level with
    | zero =>
        obtain rfl := Option.some.inj found
        rw [Environment.bind, Scope.lookup_insert]
        split
        · next same =>
            subst same
            refine ⟨calls.length, ⟨?_, fun time survives => ?_⟩, List.getElem?_concat_length⟩
            · exact mem_survivorsAt_concat.mpr (.inr ⟨rfl, by omega, value, rfl⟩)
            · have inside := lt_length_of_mem_survivorsAt survives
              simp only [List.length_append, List.length_singleton] at inside
              omega
        · next distinct =>
            have innermost : env.scopes[0]? = some env.innermost := rfl
            refine told.bound_concat innermost (by omega) (by omega) ?_
            rintro - other ⟨⟩
            exact distinct rfl
    | succ level =>
        have unchanged : env.scopes[level + 1]? = some scope := found
        exact told.bound_concat unchanged (by omega) (by omega) (by omega)

/-- Whatever is called, by induction on the calls from the last one. -/
theorem run (calls : List Call)
    : (ofCalls calls).IsToldBy calls := by
  induction calls using List.reverseRecOn with
  | nil => exact .empty
  | append_singleton calls call ih =>
      rw [ofCalls_concat]
      cases call with
      | pushScope => exact ih.pushScope
      | popScope => exact ih.popScope
      | declare name value => exact ih.bind name value

/-- What was declared in a scope that is still open is bound there. -/
theorem exists_scope (told : env.IsToldBy calls) (survives : time ∈ survivors calls name)
    : ∃ level scope,
        env.scopes[level]? = some scope
        ∧ openScopes (calls.take time) + level = openScopes calls
        ∧ scope.lookup name ≠ none := by
  have bound := depth_le_of_mem_survivorsAt ⟨survives, rfl⟩
  have positive := one_le_openScopes (calls.take time)
  have inside : openScopes calls - openScopes (calls.take time) < env.scopes.length := by
    have depth : env.scopes.length = openScopes calls := told.depth
    omega
  have found := List.getElem?_eq_getElem inside
  have level_eq
      : openScopes (calls.take time) + (openScopes calls - openScopes (calls.take time))
        = openScopes calls := by
    omega
  refine ⟨_, _, found, level_eq, fun absent => ?_⟩
  have latest := told.bound _ _ _ name found level_eq
  rw [absent] at latest
  exact latest.le ⟨survives, rfl⟩

/-- A name is what it was last declared as in any open scope: scopes further in have been open
for a shorter time, so whatever was declared in them came later.
-/
theorem lookup_isLatest (told : env.IsToldBy calls) (name : String)
    : IsLatest calls name (survivors calls name) (env.lookup name) := by
  cases value : env.lookup name with
  | none =>
      refine Set.eq_empty_of_forall_notMem fun time survives => ?_
      obtain ⟨level, scope, found, -, bound⟩ := told.exists_scope survives
      exact bound (List.findSome?_eq_none_iff.mp value scope (List.mem_of_getElem? found))
  | some value =>
      obtain ⟨inner, scope, outer, scopes, bound, absent⟩ := List.findSome?_eq_some_iff.mp value
      have depth : env.scopes.length = openScopes calls := told.depth
      rw [scopes, List.length_append, List.length_cons] at depth
      have found : env.scopes[inner.length]? = some scope := by simp [scopes]
      have latest := told.bound _ _ (openScopes calls - inner.length) name found (by omega)
      rw [bound] at latest
      obtain ⟨time, ⟨⟨survives, time_depth⟩, greatest⟩, declared⟩ := latest
      refine ⟨time, ⟨survives, fun other survives' => ?_⟩, declared⟩
      by_contra later
      have stays := (mem_survivors_iff.mp survives).2 other (by omega)
      obtain ⟨level, scope', found', level_eq, bound'⟩ := told.exists_scope survives'
      -- The later declaration would be in the same scope, or in one that binds nothing.
      obtain same | further := Nat.eq_or_lt_of_le (show level ≤ inner.length by omega)
      · exact later (greatest ⟨survives', by omega⟩)
      · rw [scopes, List.getElem?_append_left further] at found'
        exact bound' (absent scope' (List.mem_of_getElem? found'))

end IsToldBy

-----------------------------------------------------------------------------------------
-- Names that have a value
-----------------------------------------------------------------------------------------

/-- Names are different once duplicates are erased, by induction on how many they are. -/
theorem nodup_eraseDups (names : List String)
    : names.eraseDups.Nodup := by
  match names with
  | [] => exact .nil
  | name :: rest =>
      rw [List.eraseDups_cons, List.nodup_cons]
      exact ⟨by simp [List.mem_eraseDups], nodup_eraseDups _⟩
termination_by names.length
decreasing_by exact Nat.lt_succ_of_le (List.length_filter_le _ _)

/-- The names of an environment are those that have a value. -/
theorem mem_names_iff {env : Environment} {name : String}
    : name ∈ env.names ↔ env.lookup name ≠ none := by
  rw [names, List.mem_eraseDups, List.mem_flatMap, lookup, Ne, List.findSome?_eq_none_iff]
  simp only [Scope.lookup_eq_none_iff, not_forall, not_not, exists_prop]

/-- The size of an environment counts the names that have a value. -/
theorem encard_bound (env : Environment)
    : {name | env.lookup name ≠ none}.encard = env.size := by
  have distinct : env.names.Nodup := nodup_eraseDups _
  have bound : {name | env.lookup name ≠ none} = (env.names.toFinset : Set String) := by
    ext name
    simp [mem_names_iff]
  rw [bound, Set.encard_coe_eq_coe_finsetCard, List.toFinset_card_of_nodup distinct, size]

/-- Environments in which names have the same values have them for equally many names. -/
theorem size_congr {env other : Environment} (same : ∀ name, env.lookup name = other.lookup name)
    : env.size = other.size := by
  have bound := encard_bound env
  simp only [same, encard_bound other] at bound
  exact (Nat.cast_inj.mp bound).symm

/-- An environment in which no name has a value binds nothing in any scope. -/
theorem isEmpty_iff (env : Environment)
    : env.isEmpty ↔ env.size = 0 := by
  have unbound : env.size = 0 ↔ ∀ scope ∈ env.scopes, scope.map Prod.fst = [] := by
    simp only [size, List.length_eq_zero_iff, List.eq_nil_iff_forall_not_mem, names,
      List.mem_eraseDups, List.mem_flatMap, not_exists, not_and]
    exact forall_comm.trans (forall_congr' fun scope => forall_comm)
  simp only [unbound, isEmpty, List.all_eq_true, List.isEmpty_iff, List.map_eq_nil_iff]

-----------------------------------------------------------------------------------------
-- All answers
-----------------------------------------------------------------------------------------

/-- Whether a scope can be closed is whether it is not the global one, which stays. -/
theorem popScope_iff (env : Environment)
    : (env.popScope.1 ↔ env.depth ≠ 1) ∧ (env.depth = 1 → env.popScope.2 = env) := by
  cases outer : env.outer <;> simp [popScope, depth, scopes, outer]

/-- Of the scopes opened, those are open that were not closed, by induction on the calls. -/
theorem depth_performAll_add (env : Environment) (calls : List Call)
    : (env.performAll (calls.map Call.operation)).depth + closings env calls
      = env.depth + calls.count .pushScope := by
  induction calls generalizing env with
  | nil => rfl
  | cons call rest ih =>
      have later := ih (env.perform call.operation)
      have step : (env.perform call.operation).depth
            + (if call = .popScope ∧ env.popScope.1 then 1 else 0)
          = env.depth + [call].count .pushScope := by
        cases call with
        | pushScope => rfl
        | declare name value => rfl
        | popScope =>
            cases outer : env.outer <;>
              simp [Call.operation, perform, popScope, depth, scopes, outer]
      rw [List.map_cons, performAll, List.foldl_cons, ← performAll, closings,
        List.count_cons, ← List.count_singleton]
      omega

/-- An environment made by calls answers as these tell: a name is what it was last declared as
in a scope still open, its value in the innermost scope is what it was last declared as there,
and the scopes are those opened and not closed. Witness: every scope holds the latest
declarations made in it that survive, after any calls.
-/
theorem ofCalls_answersBy (calls : List Call)
    : (ofCalls calls).AnswersBy calls := by
  have told := IsToldBy.run calls
  have innermost (name : String)
      : IsLatest calls name (survivorsAt calls name (openScopes calls))
          ((ofCalls calls).localValue? name) :=
    told.bound 0 _ _ name rfl rfl
  have opened := depth_performAll_add empty calls
  refine {
    lookup := told.lookup_isLatest
    containsLocal := fun name => ?_
    declare := fun name _ => innermost name
    depth := told.depth
    depth_add := opened
    depth_pos := told.depth ▸ one_le_openScopes calls
    popScope := (popScope_iff _).1
    popScope_global := (popScope_iff _).2
    size := encard_bound _
    isEmpty := isEmpty_iff _
  }
  have latest := innermost name
  rw [containsLocal]
  cases value : (ofCalls calls).localValue? name with
  | none =>
      rw [value] at latest
      simp [show survivorsAt calls name (openScopes calls) = ∅ from latest]
  | some found =>
      rw [value] at latest
      obtain ⟨time, greatest, -⟩ := latest
      exact iff_of_true rfl ⟨time, greatest.1⟩

/-- A name declared anew is what it was once that scope is closed; the global one stays. -/
example
    : (ofCalls
          [.declare "a" .null, .pushScope, .declare "a" (.number .nan), .popScope,
            .popScope]).lookup "a"
      = some .null :=
  rfl

end Reckoner.Environment
