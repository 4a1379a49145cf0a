import Reckoner.Proofs.Environments.Answers
import Reckoner.Proofs.Execution.Isolation

/-! Declarations in another order. Declarations of different names, none of which is mentioned
in any of their initializers, end together exactly if each of them ends on its own, and yield
what they yield on their own; so it makes no difference which of them comes first.
-/

namespace Reckoner

/-- The parts of a statement that is a declaration. -/
structure Declaration where
  name : String
  initializer : Expr
  line : Nat
  deriving DecidableEq

/-- Two environments give the same answers about all names. -/
structure Environment.Resembles (env other : Environment) : Prop where
  lookup : ∀ name, env.lookup name = other.lookup name
  containsLocal : ∀ name, env.containsLocal name = other.containsLocal name
  size : env.size = other.size

namespace Declaration

def statement (d : Declaration) : Statement :=
  .declaration d.name d.initializer d.line

/-- The program that is a list of declarations. -/
def program (declarations : List Declaration) : Program :=
  declarations.map statement

/-- What declarations bind, given their values. -/
def entries (valueOf : Declaration → Value) (declarations : List Declaration) : Scope :=
  declarations.map fun d => (d.name, valueOf d)

/-- Declarations are independent if their names are different and no initializer mentions any
of these.
-/
structure Independent (declarations : List Declaration) : Prop where
  distinct : (declarations.map name).Nodup
  unmentioned : ∀ d ∈ declarations, ∀ mentioned ∈ d.initializer.mentions,
    mentioned ∉ declarations.map name

variable {env after : Environment} {added : Scope} {d : Declaration}
  {declarations others before : List Declaration} {valueOf : Declaration → Value}

theorem map_fst_entries (valueOf : Declaration → Value) (declarations : List Declaration)
    : (entries valueOf declarations).map Prod.fst = declarations.map name := by
  rw [entries, List.map_map]
  rfl

/-- New names that a declaration neither mentions nor declares make no difference to it. -/
theorem result_execute_of_growsBy (grows : env.GrowsBy added after)
    (undeclared : d.name ∉ added.map Prod.fst)
    (unmentioned : ∀ name ∈ d.initializer.mentions, name ∉ added.map Prod.fst)
    : (d.statement.execute after).result = (d.statement.execute env).result := by
  have agree : after.AgreesOn env d.statement.mentions d.statement.declaredNames :=
    grows.agreesOn unmentioned (List.forall_mem_singleton.mpr undeclared)
  exact (Statement.execute_alike agree).result

namespace Independent

theorem perm (independent : Independent declarations) (reordered : declarations.Perm others)
    : Independent others := by
  have names := reordered.map name
  refine ⟨names.nodup_iff.mp independent.distinct, fun d member mentioned inside => ?_⟩
  rw [← names.mem_iff]
  exact independent.unmentioned d (reordered.mem_iff.mpr member) mentioned inside

/-- The last one of independent declarations has nothing to do with those before it, which are
independent themselves.
-/
theorem of_concat (independent : Independent (before ++ [d]))
    : Independent before
      ∧ d.name ∉ before.map name
      ∧ ∀ mentioned ∈ d.initializer.mentions, mentioned ∉ before.map name := by
  obtain ⟨distinct, unmentioned⟩ := independent
  rw [List.map_append, List.map_singleton] at distinct unmentioned
  have apart {d' : Declaration} (member : d' ∈ before ++ [d])
      : ∀ mentioned ∈ d'.initializer.mentions, mentioned ∉ before.map name :=
    fun mentioned inside found =>
      unmentioned d' member mentioned inside (List.mem_append_left _ found)
  refine ⟨⟨distinct.of_append_left, fun d' member => apart (List.mem_append_left _ member)⟩,
    fun found => ?_, apart (by simp)⟩
  exact (List.nodup_append.mp distinct).2.2 _ found _ List.mem_cons_self rfl

/-- Independent declarations of which each ends on its own end together, each with the value
that it has on its own. Witness: induction on the declarations from the last one.
-/
theorem yields (independent : Independent declarations)
    (each : ∀ d ∈ declarations, (d.statement.execute env).result = .ok (valueOf d))
    : (∃ last, (Program.execute env (program declarations)).result = .ok last)
      ∧ Program.Yields env (program declarations) (declarations.map valueOf)
      ∧ env.GrowsBy (entries valueOf declarations)
          (Program.execute env (program declarations)).environment := by
  induction declarations using List.reverseRecOn with
  | nil => exact ⟨⟨.null, rfl⟩, ⟨rfl, by simp [program]⟩, .refl env⟩
  | append_singleton before d ih =>
      obtain ⟨independentBefore, undeclared, unmentioned⟩ := independent.of_concat
      obtain ⟨eachBefore, last⟩ := List.forall_mem_append.mp each
      obtain ⟨⟨value, ended⟩, yields, grows⟩ := ih independentBefore eachBefore
      rw [← map_fst_entries valueOf] at undeclared unmentioned
      have ends := (result_execute_of_growsBy grows undeclared unmentioned).trans
        (last d List.mem_cons_self)
      have whole := Program.execute_concat_of_ok ended ends
      rw [program, List.map_append, List.map_append, List.map_singleton, List.map_singleton,
        entries, List.map_append, List.map_singleton]
      refine ⟨⟨_, whole.1⟩, yields.concat ends, ?_⟩
      rw [← program, whole.2]
      exact grows.trans (Statement.growsBy_of_execute_ok ends)

/-- Independent declarations end together exactly if each of them ends on its own. Witness:
induction on the declarations from the last one, which finds only new names that it does not
mention.
-/
theorem exists_ok_iff (independent : Independent declarations)
    : (∃ last, (Program.execute env (program declarations)).result = .ok last)
      ↔ ∃ valueOf : Declaration → Value,
          ∀ d ∈ declarations, (d.statement.execute env).result = .ok (valueOf d) := by
  have someValue : Nonempty Value := ⟨.null⟩
  refine ⟨fun ended => ?_, fun ⟨valueOf, each⟩ => (independent.yields each).1⟩
  suffices each : ∀ d ∈ declarations, ∃ value, (d.statement.execute env).result = .ok value by
    choose! valueOf each using each
    exact ⟨valueOf, each⟩
  induction declarations using List.reverseRecOn with
  | nil => simp
  | append_singleton before d ih =>
      obtain ⟨last, ended⟩ := ended
      obtain ⟨independentBefore, undeclared, unmentioned⟩ := independent.of_concat
      rw [program, List.map_append] at ended
      obtain ⟨earlier, front⟩ := Program.exists_ok_of_append ended
      have eachBefore := ih independentBefore ⟨earlier, front⟩
      refine List.forall_mem_append.mpr ⟨eachBefore, List.forall_mem_singleton.mpr ?_⟩
      choose! valueOf eachBefore using eachBefore
      have grows := (independentBefore.yields eachBefore).2.2
      rw [← map_fst_entries valueOf] at undeclared unmentioned
      rw [← result_execute_of_growsBy grows undeclared unmentioned]
      let found := (Program.execute env (program before)).environment
      cases ends : (d.statement.execute found).result with
      | ok value => exact ⟨value, rfl⟩
      | error error =>
          have failed := (Program.execute_append_cons_of_error front ends []).1
          cases ended.symm.trans failed

/-- Independent declarations in two orders bind the same, whichever name is asked for. -/
theorem resembles (independent : Independent declarations)
    (reordered : declarations.Perm others) {after' : Environment}
    (grows : env.GrowsBy (entries valueOf declarations) after)
    (grows' : env.GrowsBy (entries valueOf others) after')
    : after.Resembles after' := by
  have same (name : String)
      : (entries valueOf declarations).reverse.lookup name
        = (entries valueOf others).reverse.lookup name := by
    have entries_perm : (entries valueOf declarations).Perm (entries valueOf others) :=
      reordered.map _
    refine Scope.lookup_eq_of_perm ?_
      (List.reverse_perm'.mpr (List.perm_reverse.mpr entries_perm)) name
    rw [List.map_reverse, map_fst_entries]
    exact List.nodup_reverse.mpr independent.distinct
  have lookup (name : String) : after.lookup name = after'.lookup name := by
    rw [grows.lookup_eq, grows'.lookup_eq, same]
  refine ⟨lookup, fun name => ?_, Environment.size_congr lookup⟩
  simp only [Environment.containsLocal, grows.localValue?_eq, grows'.localValue?_eq, same]

end Independent

/-- Independent declarations can be put in any order. They end in one exactly if they end in
the other, and then every declaration yields the same value in both, and the two environments
that they leave answer alike about all names.
-/
theorem execute_reordered (independent : Independent declarations)
    (reordered : declarations.Perm others) (env : Environment)
    : let first := Program.execute env (program declarations)
      let second := Program.execute env (program others)
      ((∃ value, first.result = .ok value) ↔ ∃ value, second.result = .ok value)
      ∧ ((∃ value, first.result = .ok value) →
        (∃ valueOf : Declaration → Value,
          Program.Yields env (program declarations) (declarations.map valueOf)
          ∧ Program.Yields env (program others) (others.map valueOf))
        ∧ first.environment.Resembles second.environment) := by
  intro first second
  have independent' := independent.perm reordered
  have each_iff (valueOf : Declaration → Value)
      : (∀ d ∈ declarations, (d.statement.execute env).result = .ok (valueOf d))
        ↔ ∀ d ∈ others, (d.statement.execute env).result = .ok (valueOf d) :=
    forall_congr' fun d => imp_congr_left reordered.mem_iff
  refine ⟨?_, fun ended => ?_⟩
  · rw [independent.exists_ok_iff, independent'.exists_ok_iff]
    exact exists_congr each_iff
  · obtain ⟨valueOf, each⟩ := independent.exists_ok_iff.mp ended
    obtain ⟨-, yields, grows⟩ := independent.yields each
    obtain ⟨-, yields', grows'⟩ := independent'.yields ((each_iff valueOf).mp each)
    exact ⟨⟨valueOf, yields, yields'⟩, independent.resembles reordered grows grows'⟩

/-- Three declarations, one of a name that an outer scope binds too. The last one comes first:
the two environments are different lists of entries and answer alike.
-/
theorem execute_reordered_last_first
    : let a : Declaration := ⟨"a", .reference "x" 1, 1⟩
      let b : Declaration := ⟨"b", .binary (.reference "x" 2) .mul (.reference "x" 2) 2, 2⟩
      let c : Declaration := ⟨"c", .null 3, 3⟩
      let env : Environment :=
        { innermost := [("z", .null)]
          outer := [[("x", .number (.infinite true)), ("a", .null)]] }
      let first := Program.execute env (program [a, b, c])
      let second := Program.execute env (program [c, a, b])
      Independent [a, b, c]
      ∧ [a, b, c].Perm [c, a, b]
      ∧ first.result = .ok .null
      ∧ second.result = .ok (.number (.infinite false))
      ∧ first.environment.Resembles second.environment
      ∧ first.environment ≠ second.environment := by
  intro a b c env first second
  have independent : Independent [a, b, c] := by
    constructor
    · decide
    · simp [a, b, c, Expr.mentions]
  have reordered : [a, b, c].Perm [c, a, b] :=
    ((List.Perm.swap c b []).cons a).trans (.swap c a [b])
  have ended : first.result = .ok .null := by decide +kernel
  exact ⟨independent, reordered, ended, by decide +kernel,
    ((execute_reordered independent reordered env).2 ⟨.null, ended⟩).2, by decide +kernel⟩

end Declaration
end Reckoner
