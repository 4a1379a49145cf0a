import Reckoner.Expr.Evaluate
import Reckoner.Proofs.Environments.Growth

/-! Environments that agree on names. An expression looks up the names that it mentions and no
others, so it comes to the same in environments that agree on these, in whichever scopes they
bind them and whatever else they bind.
-/

namespace Reckoner

namespace Expr

/-- The names that an expression mentions, in order. -/
def mentions : Expr → List String
  | number .. | null _ => []
  | reference name _ => [name]
  | binary left _ right _ => left.mentions ++ right.mentions

variable {env other : Environment} {e : Expr}

/-- An expression comes to the same where the names that it mentions do, by induction on it. -/
theorem denote_congr (agree : ∀ name ∈ e.mentions, env.lookup name = other.lookup name)
    : e.denote env = e.denote other := by
  induction e with
  | number value line | null line => rfl
  | reference name line => rw [denote, denote, agree name List.mem_cons_self]
  | binary left op right line leftIH rightIH =>
      obtain ⟨first, second⟩ := List.forall_mem_append.mp agree
      simp only [denote, leftIH first, rightIH second]

theorem applications_congr (agree : ∀ name ∈ e.mentions, env.lookup name = other.lookup name)
    : e.applications env = e.applications other := by
  induction e with
  | number value line | null line | reference name line => rfl
  | binary left op right line leftIH rightIH =>
      obtain ⟨first, second⟩ := List.forall_mem_append.mp agree
      simp only [applications, denote_congr first, denote_congr second, leftIH first,
        rightIH second]

theorem evaluate_congr (agree : ∀ name ∈ e.mentions, env.lookup name = other.lookup name)
    : e.evaluate env = e.evaluate other := by
  rw [evaluate_eq, evaluate_eq, denote_congr agree, applications_congr agree]

end Expr

namespace Environment

/-- Two environments agree on what some names are looked up as, and on which of other names
their innermost scopes bind.
-/
structure AgreesOn (env other : Environment) (mentioned declared : List String) : Prop where
  lookup : ∀ name ∈ mentioned, env.lookup name = other.lookup name
  containsLocal : ∀ name ∈ declared, env.containsLocal name = other.containsLocal name

variable {env other grown grown' : Environment} {added : Scope}
  {mentioned declared fewer less : List String}

namespace AgreesOn

theorem mono (agree : env.AgreesOn other mentioned declared) (inside : fewer ⊆ mentioned)
    (inside' : less ⊆ declared)
    : env.AgreesOn other fewer less :=
  ⟨fun name member => agree.lookup name (inside member),
    fun name member => agree.containsLocal name (inside' member)⟩

/-- Environments that grow by the same entries go on to agree, also on the names of these. -/
theorem grow (agree : env.AgreesOn other mentioned declared) (grows : env.GrowsBy added grown)
    (grows' : other.GrowsBy added grown')
    : grown.AgreesOn grown' mentioned declared := by
  refine ⟨fun name member => ?_, fun name member => ?_⟩
  · rw [grows.lookup_eq, grows'.lookup_eq, agree.lookup name member]
  · have before := agree.containsLocal name member
    simp only [Environment.containsLocal, grows.localValue?_eq, grows'.localValue?_eq,
      Option.isSome_or] at before ⊢
    rw [before]

end AgreesOn

/-- An environment that has grown agrees with what it was on all names but the new ones. -/
theorem GrowsBy.agreesOn (grows : env.GrowsBy added grown)
    (old : ∀ name ∈ mentioned, name ∉ added.map Prod.fst)
    (old' : ∀ name ∈ declared, name ∉ added.map Prod.fst)
    : grown.AgreesOn env mentioned declared := by
  have unbound {name : String} (absent : name ∉ added.map Prod.fst)
      : added.reverse.lookup name = none := by
    rw [Scope.lookup_eq_none_iff, List.map_reverse, List.mem_reverse]
    exact absent
  refine ⟨fun name member => ?_, fun name member => ?_⟩
  · rw [grows.lookup_eq, unbound (old name member), Option.none_or]
  · rw [containsLocal, containsLocal, grows.localValue?_eq, unbound (old' name member),
      Option.none_or]

end Environment
end Reckoner
