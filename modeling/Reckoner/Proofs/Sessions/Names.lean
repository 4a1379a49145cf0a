import Reckoner.Proofs.Environments.Operations
import Reckoner.Proofs.Sessions.Provenance

/-! The names of a session. Whatever sources are run, a session binds only names that can be
written, and a source that is such a name gives its value, or says that it has none.
-/

namespace Reckoner

/-- A name that a program of a source declares is one that can be written. -/
theorem Program.Declares.isName {source : String} {program : Program} {env : Environment}
    {name : String} (declares : Declares env program name)
    (parsed : ofSource source = .ok program)
    : IsName name := by
  obtain ⟨i, initializer, line, value, found, -⟩ := declares
  exact (isFromSource_of_ofSource parsed _ (List.mem_of_getElem? found)).1

/-- A name that has a value after growth had one before, or is among what was added. -/
theorem Environment.GrowsBy.exists_entry_or_lookup {before after : Environment} {added : Scope}
    (grows : before.GrowsBy added after) {name : String} {value : Value}
    (bound : after.lookup name = some value)
    : (∃ entry ∈ added, entry.1 = name) ∨ before.lookup name = some value := by
  rw [grows.lookup_eq] at bound
  rcases Option.or_eq_some_iff.mp bound with new | old
  · obtain ⟨front, behind, split, -⟩ := List.lookup_eq_some_iff.mp new
    have member : (name, value) ∈ added.reverse := by simp [split]
    exact .inl ⟨_, List.mem_reverse.mp member, rfl⟩
  · exact .inr old.2

/-- The source that is a name is read as a reference to it on the first line. -/
theorem IsName.ofSource {name : String} (isName : IsName name)
    : Program.ofSource name = .ok [.expression (.reference name 1) 1] :=
  (Level.Writes.reference isName 1).of_operand.ofSource (Nat.zero_le _)

namespace Session

/-- A session binds only names that can be written. -/
def BindsNames (session : Session) : Prop :=
  ∀ name value, session.lookup name = some value → IsName name

theorem bindsNames_fresh
    : fresh.BindsNames := by
  intro name value bound
  cases bound

/-- A run binds only names that can be written, whatever becomes of its source: what it adds has
been declared by a program of that source, also where the program fails behind it.
-/
theorem BindsNames.run {session : Session} (binds : session.BindsNames) (source : String)
    : (session.run source).session.BindsNames := by
  cases parsed : Program.ofSource source with
  | error fault =>
      rw [(run_of_ofSource_error parsed session).2]
      exact binds
  | ok program =>
      rw [(run_of_ofSource parsed session).2]
      obtain ⟨added, grows, declared⟩ :=
        Program.exists_growsBy_declares session.environment program
      intro name value bound
      rcases grows.exists_entry_or_lookup bound with ⟨entry, member, rfl⟩ | old
      · exact (declared entry member).isName parsed
      · exact binds name value old

/-- Any sources leave only names bound that can be written, by induction on the sources. -/
theorem BindsNames.runAll {session : Session} (binds : session.BindsNames)
    (sources : List String)
    : (session.runAll sources).BindsNames := by
  induction sources generalizing session with
  | nil => exact binds
  | cons source rest ih => exact ih (binds.run source)

/-- Running a name changes nothing and gives the value it has, or the error that it has none. -/
theorem run_of_isName {name : String} (isName : IsName name) (session : Session)
    : (session.run name).session = session
      ∧ (session.run name).result
        = match session.lookup name with
          | some value => .ok value
          | none => .error (.runtime (.unknownVariable name 1)) := by
  obtain ⟨result, after⟩ := run_of_ofSource_expression isName.ofSource session
  refine ⟨after, ?_⟩
  rw [result, Expr.denote, lookup]
  cases session.environment.lookup name <;> rfl

/-- What a session binds, a source can read back. After any sources, whatever became of each, all
bound names can be written; and for every name that can be written, running it leaves the session
as it was and gives exactly the value that the name has, or the error that it has none, with the
name on the first line.
-/
theorem bound_names_read_back (sources : List String)
    : let session : Session := fresh.runAll sources
      (∀ name value, session.lookup name = some value → IsName name)
      ∧ ∀ name, IsName name →
        (session.run name).session = session
        ∧ (session.run name).result
          = match session.lookup name with
            | some value => .ok value
            | none => .error (.runtime (.unknownVariable name 1)) :=
  ⟨bindsNames_fresh.runAll sources, fun _ isName => run_of_isName isName _⟩

/-- A name that is bound to minus zero by a source that fails behind it is read back so, and one
that was not bound there is unknown.
-/
theorem bound_names_read_back_minus_zero
    : let session : Session :=
        fresh.runAll ["let x = 0 % 1 - 0", "let é = 0 * (0 - 1) let y = x + z"]
      session.lookup "é" = some (.number (.signedZero true))
      ∧ (session.run "é").result = .ok (.number (.signedZero true))
      ∧ (session.run "y").session = session
      ∧ (session.run "y").result = .error (.runtime (.unknownVariable "y" 1)) := by
  intro session
  have bound : session.lookup "é" = some (.number (.signedZero true)) := by decide +kernel
  have unbound : session.lookup "y" = none := by decide +kernel
  obtain ⟨names, reads⟩ :=
    bound_names_read_back ["let x = 0 % 1 - 0", "let é = 0 * (0 - 1) let y = x + z"]
  have accented := (reads "é" (names "é" _ bound)).2
  have isName : IsName "y" :=
    ⟨by decide, List.all_eq_true.mp (by decide), by decide, by decide⟩
  obtain ⟨same, unknown⟩ := reads "y" isName
  simp only [session] at bound unbound
  simp only [bound] at accented
  simp only [unbound] at unknown
  exact ⟨bound, accented, same, unknown⟩

end Session
end Reckoner
