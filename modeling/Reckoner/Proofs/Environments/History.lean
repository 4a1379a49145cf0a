import Mathlib.Data.List.Induction
import Mathlib.Order.Bounds.Basic
import Reckoner.Environment

/-! Histories of environments. What was called, in its order, tells how many scopes are open and
which declarations were made in one of them, without any environment.
-/

namespace Reckoner.Environment

-----------------------------------------------------------------------------------------
-- Histories
-----------------------------------------------------------------------------------------

/-- A call on scopes or on a name itself. -/
inductive Call
  | pushScope
  | popScope
  | declare (name : String) (value : Value)
  deriving DecidableEq

namespace Call

/-- How many scopes are open behind a call, by how many are in front of it. The global scope is
never closed.
-/
def scopesBehind (count : Nat) : Call → Nat
  | pushScope => count + 1
  | popScope => max 1 (count - 1)
  | declare .. => count

end Call

/-- How many scopes are open after calls on a new environment. -/
def openScopes (calls : List Call) : Nat :=
  calls.foldl Call.scopesBehind 1

/-- The call at a time closes a scope if it is meant to and that is not the global scope. A time
is the number of calls before it.
-/
def ClosesAt (calls : List Call) (time : Nat) : Prop :=
  calls[time]? = some .popScope ∧ openScopes (calls.take time) ≠ 1

/-- The times at which a name was declared in a scope that is still open: no call since has
closed a scope while as many were open as then.
-/
def survivors (calls : List Call) (name : String) : Set Nat :=
  {time | (∃ value, calls[time]? = some (.declare name value))
    ∧ ∀ later, time < later → ClosesAt calls later →
      openScopes (calls.take later) ≠ openScopes (calls.take time)}

/-- Those times among them at which the given number of scopes was open. Of the scopes that are
open now, the name was declared in the one with that many from itself outwards.
-/
def survivorsAt (calls : List Call) (name : String) (depth : Nat) : Set Nat :=
  {time ∈ survivors calls name | openScopes (calls.take time) = depth}

/-- A value is what a name was declared as at the latest of some times, if there are any. -/
def IsLatest (calls : List Call) (name : String) (times : Set Nat) : Option Value → Prop
  | none => times = ∅
  | some value => ∃ time, IsGreatest times time ∧ calls[time]? = some (.declare name value)

-----------------------------------------------------------------------------------------
-- One more call
-----------------------------------------------------------------------------------------

variable {calls : List Call} {call : Call} {name : String} {depth time : Nat}

theorem openScopes_concat (calls : List Call) (call : Call)
    : openScopes (calls ++ [call]) = call.scopesBehind (openScopes calls) := by
  simp only [openScopes, List.foldl_append, List.foldl_cons, List.foldl_nil]

theorem one_le_openScopes (calls : List Call)
    : 1 ≤ openScopes calls := by
  induction calls using List.reverseRecOn with
  | nil => exact Nat.le_refl 1
  | append_singleton calls call ih =>
      rw [openScopes_concat]
      cases call with
      | pushScope => exact Nat.le_add_left 1 _
      | popScope => exact Nat.le_max_left 1 _
      | declare name value => exact ih

theorem openScopes_take_succ {calls : List Call} {call : Call} {time : Nat}
    (found : calls[time]? = some call)
    : openScopes (calls.take (time + 1)) = call.scopesBehind (openScopes (calls.take time)) := by
  rw [List.take_add_one, found, Option.toList_some, openScopes_concat]

/-- A scope is still open if there have always been as many open as when it was innermost.
Witness: induction on the time since then. With only so many open, the next one to be closed
would be that scope.
-/
theorem mem_survivors_iff
    : time ∈ survivors calls name
      ↔ (∃ value, calls[time]? = some (.declare name value))
        ∧ ∀ later, time ≤ later →
          openScopes (calls.take time) ≤ openScopes (calls.take later) := by
  refine and_congr_right fun ⟨value, declared⟩ => ⟨fun survives later after => ?_, ?_⟩
  · induction later, after using Nat.le_induction with
    | base => exact Nat.le_refl _
    | succ later after ih =>
        cases found : calls[later]? with
        | none => rwa [List.take_add_one, found, Option.toList_none, List.append_nil]
        | some call =>
            rw [openScopes_take_succ found]
            cases call with
            | pushScope => exact Nat.le_succ_of_le ih
            | declare other value => exact ih
            | popScope =>
                have behind : time ≠ later := by
                  rintro rfl
                  cases declared.symm.trans found
                have stays := survives later (by omega)
                have positive := one_le_openScopes (calls.take time)
                by_cases global : openScopes (calls.take later) = 1
                · simp only [Call.scopesBehind]
                  omega
                · have apart := stays ⟨found, global⟩
                  simp only [Call.scopesBehind]
                  omega
  · rintro stays later after ⟨closes, inner⟩ same
    have next := stays (later + 1) (by omega)
    have positive := one_le_openScopes (calls.take later)
    rw [openScopes_take_succ closes] at next
    simp only [Call.scopesBehind] at next
    omega

theorem mem_survivorsAt_iff
    : time ∈ survivorsAt calls name depth
      ↔ (∃ value, calls[time]? = some (.declare name value))
        ∧ (∀ later, time ≤ later → depth ≤ openScopes (calls.take later))
        ∧ openScopes (calls.take time) = depth := by
  rw [survivorsAt, Set.mem_ofPred_eq, mem_survivors_iff, and_assoc]
  exact and_congr_right fun _ => and_congr_left fun at_depth => by rw [at_depth]

/-- As many scopes as were open at a time of survival are open still. -/
theorem depth_le_of_mem_survivorsAt (survives : time ∈ survivorsAt calls name depth)
    : depth ≤ openScopes calls := by
  obtain ⟨⟨value, found⟩, stays, -⟩ := mem_survivorsAt_iff.mp survives
  have inside := (List.getElem?_eq_some_iff.mp found).1
  have now := stays calls.length (Nat.le_of_lt inside)
  rwa [List.take_length] at now

theorem lt_length_of_mem_survivorsAt (survives : time ∈ survivorsAt calls name depth)
    : time < calls.length := by
  obtain ⟨⟨value, found⟩, -⟩ := mem_survivorsAt_iff.mp survives
  exact (List.getElem?_eq_some_iff.mp found).1

/-- Scopes have stayed open through one more call if they had before and are behind it. -/
theorem stays_open_concat_iff (inside : time ≤ calls.length)
    : (∀ later, time ≤ later → depth ≤ openScopes ((calls ++ [call]).take later))
      ↔ (∀ later, time ≤ later → depth ≤ openScopes (calls.take later))
        ∧ depth ≤ openScopes (calls ++ [call]) := by
  have whole {later : Nat} (behind : calls.length < later)
      : (calls ++ [call]).take later = calls ++ [call] :=
    List.take_of_length_le (by simpa using Nat.succ_le_of_lt behind)
  constructor
  · intro stays
    refine ⟨fun later after => ?_, ?_⟩
    · obtain behind | within := Nat.lt_or_ge calls.length later
      · rw [List.take_of_length_le (Nat.le_of_lt behind)]
        simpa using stays calls.length inside
      · simpa only [List.take_append_of_le_length within] using stays later after
    · simpa only [whole (Nat.lt_succ_self _)] using stays (calls.length + 1) (by omega)
  · rintro ⟨stays, bound⟩ later after
    obtain behind | within := Nat.lt_or_ge calls.length later
    · rwa [whole behind]
    · rw [List.take_append_of_le_length within]
      exact stays later after

/-- What survives one more call did so before and is not closed by it, or is declared by it in
the innermost scope.
-/
theorem mem_survivorsAt_concat
    : time ∈ survivorsAt (calls ++ [call]) name depth
      ↔ (time ∈ survivorsAt calls name depth ∧ depth ≤ openScopes (calls ++ [call]))
        ∨ (time = calls.length ∧ depth = openScopes calls
            ∧ ∃ value, call = .declare name value) := by
  constructor
  · intro survives
    have inside := lt_length_of_mem_survivorsAt survives
    obtain ⟨⟨value, found⟩, stays, at_depth⟩ := mem_survivorsAt_iff.mp survives
    rw [List.length_append, List.length_singleton, Nat.lt_succ_iff_lt_or_eq] at inside
    obtain earlier | rfl := inside
    · have ⟨stayed, bound⟩ := (stays_open_concat_iff (Nat.le_of_lt earlier)).mp stays
      rw [List.getElem?_append_left earlier] at found
      rw [List.take_append_of_le_length (Nat.le_of_lt earlier)] at at_depth
      exact .inl ⟨mem_survivorsAt_iff.mpr ⟨⟨value, found⟩, stayed, at_depth⟩, bound⟩
    · rw [List.getElem?_concat_length, Option.some.injEq] at found
      rw [List.take_left] at at_depth
      exact .inr ⟨rfl, at_depth.symm, value, found⟩
  · rintro (⟨survives, bound⟩ | ⟨rfl, rfl, value, rfl⟩)
    · have earlier := lt_length_of_mem_survivorsAt survives
      obtain ⟨⟨value, found⟩, stayed, at_depth⟩ := mem_survivorsAt_iff.mp survives
      refine mem_survivorsAt_iff.mpr ⟨⟨value, ?_⟩, ?_, ?_⟩
      · rwa [List.getElem?_append_left earlier]
      · exact (stays_open_concat_iff (Nat.le_of_lt earlier)).mpr ⟨stayed, bound⟩
      · rwa [List.take_append_of_le_length (Nat.le_of_lt earlier)]
    · refine mem_survivorsAt_iff.mpr
        ⟨⟨value, List.getElem?_concat_length⟩, ?_, by rw [List.take_left]⟩
      refine (stays_open_concat_iff (Nat.le_refl _)).mpr ⟨fun later after => ?_, ?_⟩
      · rw [List.take_of_length_le after]
      · rw [openScopes_concat]
        exact Nat.le_refl _

/-- Nothing changes at a number of scopes that stay open, unless the name is declared there. -/
theorem survivorsAt_concat (stays : depth ≤ openScopes (calls ++ [call]))
    (other : depth = openScopes calls → ∀ value, call ≠ .declare name value)
    : survivorsAt (calls ++ [call]) name depth = survivorsAt calls name depth := by
  ext time
  rw [mem_survivorsAt_concat]
  constructor
  · rintro (⟨survives, -⟩ | ⟨-, same, value, declares⟩)
    · exact survives
    · exact absurd declares (other same value)
  · exact fun survives => .inl ⟨survives, stays⟩

/-- What a name was declared as stays so, whatever is called later. -/
theorem IsLatest.concat {times : Set Nat} {value : Option Value}
    (latest : IsLatest calls name times value) (call : Call)
    : IsLatest (calls ++ [call]) name times value := by
  cases value with
  | none => exact latest
  | some value =>
      obtain ⟨time, greatest, found⟩ := latest
      refine ⟨time, greatest, ?_⟩
      rwa [List.getElem?_append_left (List.getElem?_eq_some_iff.mp found).1]

end Reckoner.Environment
