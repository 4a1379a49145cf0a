import Mathlib.Data.List.Nodup
import Reckoner.Environment

/-! Environments that grow. New names enter the innermost scope, each of them once, and
whatever is bound there already keeps its value; no other scope changes.
-/

namespace Reckoner

/-- A scope binds exactly the names of its entries. -/
theorem Scope.lookup_eq_none_iff {scope : Scope} {name : String}
    : scope.lookup name = none ↔ name ∉ scope.map Prod.fst := by
  rw [List.lookup_eq_none_iff, List.mem_map]
  constructor
  · rintro absent ⟨entry, member, rfl⟩
    simpa using absent entry member
  · intro absent entry member
    exact bne_iff_ne.mpr fun same => absent ⟨entry, member, same.symm⟩

/-- A scope that binds every name once binds it as its entry says, wherever that stands. -/
theorem Scope.lookup_eq_some_iff {scope : Scope} (distinct : (scope.map Prod.fst).Nodup)
    {name : String} {value : Value}
    : scope.lookup name = some value ↔ (name, value) ∈ scope := by
  rw [List.lookup_eq_some_iff]
  constructor
  · rintro ⟨front, behind, rfl, -⟩
    simp
  · intro member
    obtain ⟨front, behind, rfl⟩ := List.append_of_mem member
    refine ⟨front, behind, rfl, fun entry found => bne_iff_ne.mpr ?_⟩
    rintro rfl
    rw [List.map_append, List.map_cons, List.nodup_append] at distinct
    exact distinct.2.2 _ (List.mem_map_of_mem found) _ List.mem_cons_self rfl

/-- The order of entries decides nothing where every name is bound once. -/
theorem Scope.lookup_eq_of_perm {scope other : Scope} (distinct : (scope.map Prod.fst).Nodup)
    (reordered : scope.Perm other) (name : String)
    : scope.lookup name = other.lookup name := by
  have distinct' : (other.map Prod.fst).Nodup := (reordered.map Prod.fst).nodup_iff.mp distinct
  refine Option.ext fun value => ?_
  rw [Scope.lookup_eq_some_iff distinct, Scope.lookup_eq_some_iff distinct',
    reordered.mem_iff]

/-- Nothing is erased from names that are all different, by induction on them. -/
theorem eraseDups_eq_self {names : List String} (distinct : names.Nodup)
    : names.eraseDups = names := by
  induction names with
  | nil => rfl
  | cons name rest ih =>
      obtain ⟨absent, others⟩ := List.nodup_cons.mp distinct
      have kept : rest.filter (fun other => !other == name) = rest := by
        refine List.filter_eq_self.mpr fun other member => ?_
        simpa using fun same : other = name => absent (same ▸ member)
      rw [List.eraseDups_cons, kept, ih others]

/-- In a global scope and no other, a name is what it is bound to there. -/
theorem Environment.lookup_of_global {env : Environment} (global : env.outer = [])
    (name : String)
    : env.lookup name = env.localValue? name := by
  rw [lookup, scopes, global, List.findSome?_singleton]
  rfl

/-- An environment grows to another one by entries, in order: the other one has them as well
in its innermost scope, under names of their own, and has everything else the same.
-/
structure Environment.GrowsBy (before : Environment) (added : Scope) (after : Environment)
    : Prop where
  innermost : after.innermost = added.reverse ++ before.innermost
  outer : after.outer = before.outer
  fresh : ∀ entry ∈ added, before.localValue? entry.1 = none
  distinct : (added.map Prod.fst).Nodup

namespace Environment.GrowsBy

variable {before middle after : Environment} {added more : Scope}

theorem refl (env : Environment)
    : env.GrowsBy [] env :=
  ⟨rfl, rfl, by simp, .nil⟩

/-- Binding a new name is growing by it, since there is nothing to replace. -/
theorem bind {env : Environment} {name : String} (absent : env.localValue? name = none)
    (value : Value)
    : env.GrowsBy [(name, value)] (env.bind name value) := by
  refine ⟨?_, rfl, List.forall_mem_singleton.mpr absent, List.nodup_singleton name⟩
  simp only [Environment.bind, Scope.insert, Scope.erase_of_lookup_eq_none absent]
  rfl

/-- A name is bound after growth if it is new, or else as before. -/
theorem localValue?_eq (grows : before.GrowsBy added after) (name : String)
    : after.localValue? name = (added.reverse.lookup name).or (before.localValue? name) := by
  rw [localValue?, grows.innermost, List.lookup_append]
  rfl

/-- A name is looked up after growth as what it is bound to anew, or else as before. -/
theorem lookup_eq (grows : before.GrowsBy added after) (name : String)
    : after.lookup name = (added.reverse.lookup name).or (before.lookup name) := by
  simp only [lookup, scopes, List.findSome?_cons, grows.innermost, grows.outer,
    List.lookup_append]
  cases added.reverse.lookup name <;> rfl

/-- What is bound already keeps its value. -/
theorem keeps (grows : before.GrowsBy added after) {name : String} {value : Value}
    (bound : before.localValue? name = some value)
    : after.localValue? name = some value := by
  have old : added.reverse.lookup name = none := by
    refine Scope.lookup_eq_none_iff.mpr fun member => ?_
    obtain ⟨entry, found, rfl⟩ := List.mem_map.mp member
    rw [grows.fresh entry (List.mem_reverse.mp found)] at bound
    cases bound
  rw [grows.localValue?_eq, old, bound]
  rfl

/-- What is bound after growth is new or was bound already. -/
theorem exists_entry_or (grows : before.GrowsBy added after) {name : String}
    (bound : after.localValue? name ≠ none)
    : (∃ entry ∈ added, entry.1 = name) ∨ before.localValue? name ≠ none := by
  rw [grows.localValue?_eq] at bound
  by_cases old : before.localValue? name = none
  · rw [old, Option.or_none, Ne, Scope.lookup_eq_none_iff, not_not] at bound
    obtain ⟨entry, member, same⟩ := List.mem_map.mp bound
    exact .inl ⟨entry, List.mem_reverse.mp member, same⟩
  · exact .inr old

/-- Growth in two steps is growth by the entries of both. A name of the second step is none of
the first, since the environment between them binds those.
-/
theorem trans (first : before.GrowsBy added middle) (second : middle.GrowsBy more after)
    : before.GrowsBy (added ++ more) after := by
  have unbound : ∀ entry ∈ more,
      entry.1 ∉ added.map Prod.fst ∧ before.localValue? entry.1 = none := by
    intro entry member
    have absent := second.fresh entry member
    rw [first.localValue?_eq, Option.or_eq_none_iff, Scope.lookup_eq_none_iff] at absent
    simpa using absent
  refine ⟨?_, second.outer.trans first.outer, ?_, ?_⟩
  · rw [second.innermost, first.innermost, List.reverse_append, List.append_assoc]
  · exact List.forall_mem_append.mpr
      ⟨first.fresh, fun entry member => (unbound entry member).2⟩
  · rw [List.map_append]
    refine first.distinct.append second.distinct ?_
    intro name old new
    obtain ⟨entry, member, rfl⟩ := List.mem_map.mp new
    exact (unbound entry member).1 old

/-- In a global scope, every entry of growth is one more name. -/
theorem size_eq (grows : before.GrowsBy added after) (global : before.outer = [])
    : after.size = before.size + added.length := by
  have names_eq {env : Environment} (global : env.outer = [])
      : env.names = (env.innermost.map Prod.fst).eraseDups := by
    rw [names, scopes, global, List.flatMap_singleton]
  have kept : (before.innermost.map Prod.fst).removeAll (added.reverse.map Prod.fst)
      = before.innermost.map Prod.fst := by
    refine List.filter_eq_self.mpr fun name member => ?_
    simp only [Bool.not_eq_true', List.elem_eq_mem, decide_eq_false_iff_not]
    intro new
    obtain ⟨entry, found, rfl⟩ := List.mem_map.mp new
    exact Scope.lookup_eq_none_iff.mp (grows.fresh entry (List.mem_reverse.mp found)) member
  have distinct : (added.reverse.map Prod.fst).Nodup := by
    rw [List.map_reverse]
    exact List.nodup_reverse.mpr grows.distinct
  rw [size, size, names_eq global, names_eq (grows.outer.trans global), grows.innermost,
    List.map_append, List.eraseDups_append, kept, eraseDups_eq_self distinct,
    List.length_append, List.length_map, List.length_reverse, Nat.add_comm]

end Environment.GrowsBy
end Reckoner
