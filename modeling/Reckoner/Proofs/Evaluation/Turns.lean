import Mathlib.Logic.Relation
import Reckoner.Expr.Evaluate

/-! Evaluations turn by turn. What a machine comes to by the structural definitions is the
same at every turn, so a machine that visits an expression is never stuck and ends with
what the structural definitions give.
-/

namespace Reckoner
namespace Machine

variable {env : Environment}

/-- The second machine is what turns that lead on make of the first. -/
def Reaches (env : Environment) : Machine → Machine → Prop :=
  Relation.ReflTransGen fun machine next => machine.turn env = .next next

/-- Turns that lead on change nothing about what a machine comes to, by induction on them. -/
theorem Reaches.outcome_eq {first last : Machine} (reached : Reaches env first last)
    : last.outcome env = first.outcome env := by
  induction reached with
  | refl => rfl
  | @tail machine next _ turned ih =>
      rw [← ih, Machine.outcome_eq env machine, turned]

/-- A machine that comes to an evaluation is not stuck. -/
theorem turn_ne_stuck {machine : Machine} {evaluation : Evaluation}
    (outcome : machine.outcome env = some evaluation)
    : machine.turn env ≠ .stuck := by
  intro stuck
  rw [outcome_eq, stuck] at outcome
  cases outcome

/-- A machine that comes to an evaluation takes turns until it ends with it.
Witness: induction on the turns of its run.
-/
theorem exists_reaches_done (machine : Machine) {evaluation : Evaluation}
    (outcome : machine.outcome env = some evaluation)
    : ∃ last, Reaches env machine last ∧ last.turn env = .done evaluation := by
  induction machine using run.induct env with
  | case1 machine next turned ih =>
      have later : next.outcome env = some evaluation := by
        rwa [outcome_eq, turned] at outcome
      obtain ⟨last, reached, ended⟩ := ih later
      exact ⟨last, reached.head turned, ended⟩
  | case2 machine other turned =>
      rw [outcome_eq, turned, Option.some.injEq] at outcome
      exact ⟨machine, .refl, outcome ▸ turned⟩
  | case3 machine turned =>
      exact absurd turned (turn_ne_stuck outcome)

end Machine

/-- The machine that visits an expression is never stuck: after any turns it goes on to end
with the evaluation, whose applications and whose value or error are those of the
structural definitions.
Witness: what the machine comes to, which is the same at every turn.
-/
theorem Expr.evaluate_refines_denote (e : Expr) (env : Environment)
    : (∀ machine, Machine.Reaches env (.start e) machine →
        machine.turn env ≠ .stuck
          ∧ ∃ last, Machine.Reaches env machine last
            ∧ last.turn env = .done (e.evaluate env))
      ∧ (e.evaluate env).result = e.denote env
      ∧ (e.evaluate env).applications = e.applications env := by
  rw [Expr.evaluate_eq]
  refine ⟨?_, rfl, rfl⟩
  intro machine reached
  have outcome := reached.outcome_eq
  rw [Machine.outcome_start] at outcome
  exact ⟨Machine.turn_ne_stuck outcome, machine.exists_reaches_done outcome⟩

end Reckoner
