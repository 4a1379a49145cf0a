import Reckoner.Proofs.Execution.Completion
import Reckoner.Proofs.Sessions.Joining

/-! What sessions keep. Whatever becomes of a source, the session afterwards has all bindings
it had before; a source that is not executed changes nothing, and one that fails changes
what its statements in front of the failing one did.
-/

namespace Reckoner

-----------------------------------------------------------------------------------------
-- Declarations in sources
-----------------------------------------------------------------------------------------

/-- A declaration of a program stands behind the statements in front of it, and its line is
that of its keyword.
-/
theorem Program.exists_keyword {source name : String} {before rest : Program}
    {initializer : Expr} {line : Nat}
    (parsed : ofSource source = .ok (before ++ .declaration name initializer line :: rest))
    : ∃ front keyword label behind,
        scan source = .ok (front ++ keyword :: label :: behind)
        ∧ ofTokens front = .ok before
        ∧ keyword.kind = .letKeyword ∧ keyword.line = line
        ∧ label.kind = .identifier ∧ label.text = name := by
  obtain ⟨derivation, last, spell, program, within⟩ := ofSource_eq_ok_iff.mp parsed
  obtain ⟨earlier, later, rfl, rfl, split⟩ := List.map_eq_append_iff.mp program
  obtain ⟨clause, others, rfl, statement, -⟩ := List.map_eq_cons_iff.mp split
  cases clause with
  | expression value => cases statement
  | declaration keyword label equals value opens names defines =>
      cases statement
      refine ⟨Derivation.tokens earlier, keyword, label,
        equals :: value.tokens ++ Derivation.tokens others ++ [Token.endOfInput last],
        ?_, ?_, opens, rfl, names, rfl⟩
      · rw [scan_eq_ok_iff.mpr ⟨_, last, spell, rfl⟩, Derivation.tokens_append,
          Derivation.tokens_cons, List.append_assoc]
        rfl
      · exact Derivation.ofTokens_tokens (List.forall_mem_append.mp within).1

/-- A source that is no program has a fault of its text, and none of an execution. -/
theorem Program.ofSource_ne_runtime (source : String) (error : EvalError)
    : ofSource source ≠ .error (.runtime error) := by
  intro refused
  unfold ofSource at refused
  cases scanned : scan source with
  | error found => simp [scanned] at refused
  | ok tokens =>
      cases parsed : ofTokens tokens <;> simp [scanned, parsed, Except.mapError] at refused

namespace Session

-----------------------------------------------------------------------------------------
-- Runs of a session
-----------------------------------------------------------------------------------------

/-- A source that is no program leaves a session as it was. -/
theorem run_of_ofSource_error {source : String} {fault : Fault}
    (refused : Program.ofSource source = .error fault) (session : Session)
    : (session.run source).result = .error fault ∧ (session.run source).session = session := by
  unfold Program.ofSource at refused
  unfold run
  cases scanned : scan source with
  | error error =>
      rw [scanned] at refused
      cases refused
      exact ⟨rfl, rfl⟩
  | ok tokens =>
      rw [scanned] at refused
      cases parsed : Program.ofTokens tokens with
      | error error =>
          simp only [parsed, Except.mapError, Except.error.injEq] at refused
          simp only [parsed, refused, and_self]
      | ok program => simp [parsed, Except.mapError] at refused

/-- Whatever becomes of a source, the environment of the session has grown. -/
theorem exists_growsBy_run (session : Session) (source : String)
    : ∃ added, session.environment.GrowsBy added (session.run source).session.environment := by
  cases parsed : Program.ofSource source with
  | error fault =>
      rw [(run_of_ofSource_error parsed session).2]
      exact ⟨[], .refl _⟩
  | ok program =>
      rw [(run_of_ofSource parsed session).2]
      exact Program.exists_growsBy session.environment program

/-- The session after sources were run one after another, whatever became of each. -/
def runAll (session : Session) (sources : List String) : Session :=
  sources.foldl (fun session source => (session.run source).session) session

/-- The environment of a session has grown after any sources, by induction on them. -/
theorem exists_growsBy_runAll (session : Session) (sources : List String)
    : ∃ added, session.environment.GrowsBy added (session.runAll sources).environment := by
  induction sources generalizing session with
  | nil => exact ⟨[], .refl _⟩
  | cons source rest ih =>
      obtain ⟨first, grows⟩ := session.exists_growsBy_run source
      obtain ⟨others, growsOn⟩ := ih (session.run source).session
      exact ⟨first ++ others, grows.trans growsOn⟩

theorem runAll_append (session : Session) (earlier later : List String)
    : session.runAll (earlier ++ later) = (session.runAll earlier).runAll later :=
  List.foldl_append

/-- A session that was fresh has a global scope and no other. -/
theorem outer_runAll_fresh (sources : List String)
    : (fresh.runAll sources).environment.outer = [] := by
  obtain ⟨added, grows⟩ := fresh.exists_growsBy_runAll sources
  exact grows.outer

/-- A session refuses to rebind names: where the execution of a source comes to a declaration
of a name that is bound by then, it fails there, whatever the initializer is, with the line of
the keyword behind the tokens of the statements in front.
-/
def RefusesToRebind (session : Session) : Prop :=
  ∀ (source : String) (front rest : Program) (name : String) (initializer : Expr) (line : Nat)
    (last bound : Value),
    Program.ofSource source = .ok (front ++ .declaration name initializer line :: rest) →
    (front.execute session.environment).result = .ok last →
    (front.execute session.environment).environment.lookup name = some bound →
      (session.run source).result = .error (.runtime (.alreadyDeclared name line))
      ∧ (session.run source).session.environment
        = (front.execute session.environment).environment
      ∧ ∃ tokens keyword label behind,
          scan source = .ok (tokens ++ keyword :: label :: behind)
          ∧ Program.ofTokens tokens = .ok front
          ∧ keyword.kind = .letKeyword ∧ keyword.line = line
          ∧ label.kind = .identifier ∧ label.text = name

/-- With no other scope than the global one, every bound name is bound where declarations go. -/
theorem refusesToRebind_of_global {session : Session} (global : session.environment.outer = [])
    : session.RefusesToRebind := by
  intro source front rest name initializer line last bound parsed ended declared
  obtain ⟨added, grows⟩ := Program.exists_growsBy session.environment front
  rw [Environment.lookup_of_global (grows.outer.trans global)] at declared
  have redeclared : (front.execute session.environment).environment.containsLocal name := by
    rw [Environment.containsLocal, declared]
    rfl
  have refused := Statement.execute_declaration_of_containsLocal redeclared initializer line
  obtain ⟨failed, environment⟩ := Program.execute_append_cons_of_error ended
    (congrArg Execution.result refused) rest
  obtain ⟨result, after⟩ := run_of_ofSource parsed session
  refine ⟨?_, ?_, Program.exists_keyword parsed⟩
  · rw [result, failed]
    rfl
  · rw [after, environment]

/-- A session keeps what it has bound, whatever sources are run later and whatever becomes of
them: names stay bound to their values, their number does not decrease, there is one scope, and
no name is bound again.
-/
theorem bindings_persist (earlier later : List String)
    : (∀ name value, (fresh.runAll earlier).lookup name = some value →
        (fresh.runAll (earlier ++ later)).lookup name = some value)
      ∧ (fresh.runAll earlier).environment.size
        ≤ (fresh.runAll (earlier ++ later)).environment.size
      ∧ (fresh.runAll earlier).environment.depth = 1
      ∧ (fresh.runAll earlier).RefusesToRebind := by
  have global := outer_runAll_fresh earlier
  obtain ⟨added, grows⟩ := (fresh.runAll earlier).exists_growsBy_runAll later
  rw [← runAll_append] at grows
  refine ⟨?_, ?_, ?_, refusesToRebind_of_global global⟩
  · intro name value bound
    rw [lookup, Environment.lookup_of_global global] at bound
    rw [lookup, Environment.lookup_of_global (grows.outer.trans global)]
    exact grows.keeps bound
  · rw [grows.size_eq global]
    exact Nat.le_add_right _ _
  · simp [Environment.depth, Environment.scopes, global]

/-- A name bound to null by a source that failed behind it stays so through sources of every
kind, and cannot be declared again by one whose initializer would fail itself.
-/
theorem bindings_persist_null
    : (fresh.runAll ["let x = null let y = z"]).lookup "x" = some .null
      ∧ (fresh.runAll
          ["let x = null let y = z", "$", "let x = 1", "let x", "let z = null"]).lookup "x"
        = some .null
      ∧ ((fresh.runAll ["let x = null let y = z"]).run "null\nlet x = x + y").result
        = .error (.runtime (.alreadyDeclared "x" 2)) := by
  have bound : (fresh.runAll ["let x = null let y = z"]).lookup "x" = some .null := by
    decide +kernel
  have parsed : Program.ofSource "null\nlet x = x + y"
      = .ok
          [.expression (.null 1) 1,
            .declaration "x" (.binary (.reference "x" 2) .add (.reference "y" 2) 2) 2] := by
    decide +kernel
  obtain ⟨keeps, -, -, refuses⟩ := bindings_persist ["let x = null let y = z"]
    ["$", "let x = 1", "let x", "let z = null"]
  exact ⟨bound, keeps "x" .null bound,
    (refuses _ [.expression (.null 1) 1] [] "x" _ 2 .null .null parsed (by decide +kernel)
      (by decide +kernel)).1⟩

-----------------------------------------------------------------------------------------
-- Completed statements
-----------------------------------------------------------------------------------------

/-- A fault keeps what was completed: nothing if the source is no program, and else the
declarations in front of the statement that fails, with the values that were yielded there.
-/
def KeepsCompleted (before : Session) (source : String) (fault : Fault) (after : Session)
    : Prop :=
  match fault with
  | .lexical _ | .grammatical _ => after = before
  | .runtime error =>
      ∃ program i values,
        Program.ofSource source = .ok program
        ∧ program.FailsAt before.environment error i
        ∧ Program.Yields before.environment (program.take i) values
        ∧ before.environment.GrowsBy (Program.bindings (program.take i) values)
          after.environment

/-- A source that is run and fails keeps what was completed. -/
theorem keepsCompleted_of_run_eq_error {session : Session} {source : String} {fault : Fault}
    (failed : (session.run source).result = .error fault)
    : session.KeepsCompleted source fault (session.run source).session := by
  cases parsed : Program.ofSource source with
  | error found =>
      obtain ⟨result, unchanged⟩ := run_of_ofSource_error parsed session
      obtain rfl := Except.error.inj (failed.symm.trans result)
      cases fault with
      | lexical error | grammatical error => exact unchanged
      | runtime error => exact absurd parsed (Program.ofSource_ne_runtime source error)
  | ok program =>
      obtain ⟨result, after⟩ := run_of_ofSource parsed session
      rw [failed] at result
      cases outcome : (program.execute session.environment).result with
      | ok value => simp [outcome, Except.mapError] at result
      | error error =>
          simp only [outcome, Except.mapError, Except.error.injEq] at result
          subst result
          obtain ⟨i, fails⟩ := Program.exists_failsAt outcome
          obtain ⟨values, yields, grows⟩ := fails.exists_yields
          exact ⟨program, i, values, parsed, fails, yields, after ▸ grows⟩

/-- A source changes exactly what its completed statements change. One that is refused by the
scan or the grammar changes nothing. A program that fails does so at one statement, with the
environment that the statements in front of it leave; and one that ends binds what it declares
to what its statements yield. Outer scopes and existing bindings stay as they are.
-/
theorem changes_completed
    : (∀ (session : Session) (source : String),
        ((∃ error, (session.run source).result = .error (.lexical error))
          ∨ ∃ error, (session.run source).result = .error (.grammatical error)) →
        (session.run source).session = session)
      ∧ ∀ (program : Program) (env : Environment),
        let done := program.execute env
        (match done.result with
          | .error error =>
              (∃! i, Program.FailsAt env program error i)
              ∧ ∀ i, Program.FailsAt env program error i →
                done.environment = (Program.execute env (program.take i)).environment
          | .ok _ =>
              ∃ values, Program.Yields env program values
                ∧ env.GrowsBy (program.bindings values) done.environment)
        ∧ done.environment.outer = env.outer
        ∧ ∀ name value, env.localValue? name = some value →
          done.environment.localValue? name = some value := by
  constructor
  · intro session source refused
    cases parsed : Program.ofSource source with
    | error fault => exact (run_of_ofSource_error parsed session).2
    | ok program =>
        rw [(run_of_ofSource parsed session).1] at refused
        cases outcome : (program.execute session.environment).result <;>
          simp [outcome, Except.mapError] at refused
  · intro program env done
    obtain ⟨added, grows⟩ := Program.exists_growsBy env program
    refine ⟨?_, grows.outer, fun name value => grows.keeps⟩
    cases outcome : done.result with
    | error error =>
        obtain ⟨i, fails⟩ := Program.exists_failsAt outcome
        exact ⟨⟨i, fails, fun j other => other.unique fails⟩,
          fun j other => other.execute_eq.2⟩
    | ok value => exact Program.exists_yields outcome

/-- The first of three statements is all that a program did that fails at the second; and a
declaration in front of a stray parenthesis is not executed.
-/
theorem changes_completed_first_of_three
    : let env : Environment := { innermost := [("a", .null)], outer := [[("b", .null)]] }
      let program : Program :=
        [.declaration "x" (.reference "b" 1) 1, .expression (.reference "c" 2) 2,
          .declaration "y" (.null 3) 3]
      (∃! i, Program.FailsAt env program (.unknownVariable "c" 2) i)
      ∧ (program.execute env).environment
        = { innermost := [("x", .null), ("a", .null)], outer := [[("b", .null)]] }
      ∧ (fresh.run "let x = null )").session = fresh := by
  intro env program
  have failed : (program.execute env).result = .error (.unknownVariable "c" 2) := by
    decide +kernel
  have facts := changes_completed.2 program env
  simp only [failed] at facts
  have refused : (fresh.run "let x = null )").result
      = .error (.grammatical (.unexpectedToken ⟨.closeParen, ")", 1⟩)) := by
    decide +kernel
  exact ⟨facts.1.1, by decide +kernel, changes_completed.1 fresh _ (.inr ⟨_, refused⟩)⟩

end Session
end Reckoner
