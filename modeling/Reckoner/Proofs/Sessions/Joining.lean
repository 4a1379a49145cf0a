import Reckoner.Proofs.Execution.Sequence
import Reckoner.Proofs.Lines.Execution
import Reckoner.Proofs.Scanning.Sources

/-! Sources in one piece or in two. Two sources that are programs each, on lines of their own,
are one program: the second below the first. A session runs it as it runs the two in turn.
-/

namespace Reckoner

/-- The lines that a source takes, of which the last one has no newline. -/
def lineCount (source : String) : Nat :=
  1 + source.toList.count '\n'

/-- Two sources that are programs are together the program of both, the second one's lines
moved below the first. Witness: no token goes over the newline between them, and derivations
in a row are a derivation.
-/
theorem Program.ofSource_append {first second : String} {p q : Program}
    (above : Program.ofSource first = .ok p) (below : Program.ofSource second = .ok q)
    : Program.ofSource (first ++ "\n" ++ second)
      = .ok (p ++ q.map (Statement.mapLines (· + lineCount first))) := by
  obtain ⟨upper, middle, upperSpell, rfl, upperWithin⟩ := Program.ofSource_eq_ok_iff.mp above
  obtain ⟨lower, last, lowerSpell, rfl, lowerWithin⟩ := Program.ofSource_eq_ok_iff.mp below
  obtain rfl : middle = lineCount first := upperSpell.last_eq
  let move (line : Nat) : Nat := line + lineCount first
  have moved : Spells (lineCount first + 1) second.toList
      (Derivation.tokens (lower.map (Clause.mapLines move))) (last + lineCount first) := by
    rw [Nat.add_comm, Derivation.tokens_map]
    exact lowerSpell.shift (lineCount first)
  refine Program.ofSource_eq_ok_iff.mpr
    ⟨upper ++ lower.map (Clause.mapLines move), last + lineCount first, ?_, ?_, ?_⟩
  · rw [String.toList_append, String.toList_append, List.append_assoc,
      Derivation.tokens_append]
    exact upperSpell.append_newline moved
  · rw [← Derivation.program_map]
    exact List.map_append
  · exact List.forall_mem_append.mpr ⟨upperWithin, lowerWithin.map move⟩

namespace Session

/-- A source that is a program is run by executing the program in the environment. -/
theorem run_of_ofSource {source : String} {program : Program}
    (parsed : Program.ofSource source = .ok program) (session : Session)
    : (session.run source).result
        = (program.execute session.environment).result.mapError .runtime
      ∧ (session.run source).session
        = { environment := (program.execute session.environment).environment } := by
  unfold Program.ofSource at parsed
  unfold run
  cases scanned : scan source with
  | error error =>
      rw [scanned] at parsed
      cases parsed
  | ok tokens =>
      rw [scanned] at parsed
      cases read : Program.ofTokens tokens with
      | error error => simp [read, Except.mapError] at parsed
      | ok found =>
          simp only [read, Except.mapError, Except.ok.injEq] at parsed
          subst parsed
          simp only [read, and_self]

/-- A source that is an expression alone changes nothing, and comes to what the expression does. -/
theorem run_of_ofSource_expression {source : String} {e : Expr} {line : Nat}
    (parsed : Program.ofSource source = .ok [.expression e line]) (session : Session)
    : (session.run source).result = (e.denote session.environment).mapError .runtime
      ∧ (session.run source).session = session := by
  obtain ⟨result, after⟩ := run_of_ofSource parsed session
  rw [result, after]
  simp only [Program.execute, Program.executeFrom, Statement.execute, Expr.evaluate_eq]
  cases e.denote session.environment <;> exact ⟨rfl, rfl⟩

/-- Running two sources that are programs in one piece is running them one after the other.
If the first one fails, so does the whole, with the same error and environment; otherwise the
second one decides, with its error below the lines of the first, and its value unless it is
empty.
-/
theorem run_append {first second : String} {p q : Program}
    (above : Program.ofSource first = .ok p) (below : Program.ofSource second = .ok q)
    : Program.ofSource (first ++ "\n" ++ second)
        = .ok (p ++ q.map (Statement.mapLines (· + lineCount first)))
      ∧ ∀ session : Session,
          let whole := session.run (first ++ "\n" ++ second)
          let before := session.run first
          let after := before.session.run second
          match before.result with
          | .error fault =>
              (∃ error, fault = .runtime error)
              ∧ whole.session = before.session
              ∧ whole.result = .error fault
          | .ok value =>
              whole.session = after.session
              ∧ match after.result with
                | .error fault =>
                    ∃ error,
                      fault = .runtime error
                      ∧ whole.result
                        = .error (.runtime (error.mapLine (· + lineCount first)))
                | .ok last => whole.result = .ok (if q = [] then value else last) := by
  have together := Program.ofSource_append above below
  refine ⟨together, ?_⟩
  intro session
  have whole := run_of_ofSource together session
  have before := run_of_ofSource above session
  have after := run_of_ofSource below (session.run first).session
  rw [Program.execute_append] at whole
  rw [before.2] at after
  simp only [whole, before, after]
  cases ended : (p.execute session.environment).result with
  | error error => exact ⟨⟨error, rfl⟩, rfl, congrArg _ ended⟩
  | ok value =>
      simp only [Program.executeFrom_eq, Program.execute_map_mapLines, Execution.mapLine,
        true_and]
      cases (q.execute (p.execute session.environment).environment).result with
      | error error => exact ⟨error, rfl, rfl⟩
      | ok last => simp [Except.mapError, Except.map]

/-- A name below two lines is on the third line of the whole. A session that runs the whole fails
there, where it fails on the first line of the second source when it runs the two in turn.
-/
theorem run_append_null_null_reference
    : Program.ofSource "null\nnull" = .ok [.expression (.null 1) 1, .expression (.null 2) 2]
      ∧ Program.ofSource "x" = .ok [.expression (.reference "x" 1) 1]
      ∧ Program.ofSource ("null\nnull" ++ "\n" ++ "x")
        = .ok
            [.expression (.null 1) 1, .expression (.null 2) 2,
              .expression (.reference "x" 3) 3]
      ∧ let whole := fresh.run ("null\nnull" ++ "\n" ++ "x")
        let before := fresh.run "null\nnull"
        let after := before.session.run "x"
        before.result = .ok .null
        ∧ after.result = .error (.runtime (.unknownVariable "x" 1))
        ∧ whole.session = after.session
        ∧ whole.result = .error (.runtime (.unknownVariable "x" 3)) := by
  have above : Program.ofSource "null\nnull"
      = .ok [.expression (.null 1) 1, .expression (.null 2) 2] := by
    decide +kernel
  have below : Program.ofSource "x" = .ok [.expression (.reference "x" 1) 1] := by
    decide +kernel
  have lines : lineCount "null\nnull" = 2 := by decide +kernel
  have first : (fresh.run "null\nnull").result = .ok .null := by decide +kernel
  have second : ((fresh.run "null\nnull").session.run "x").result
      = .error (.runtime (.unknownVariable "x" 1)) := by
    decide +kernel
  -- For sources that are not given, so that nothing is run where the outcomes are put in.
  have joined {first second : String} {p q : Program} {value : Value} {error : EvalError}
      (above : Program.ofSource first = .ok p) (below : Program.ofSource second = .ok q)
      (succeeds : (fresh.run first).result = .ok value)
      (fails : ((fresh.run first).session.run second).result = .error (.runtime error))
      : (fresh.run (first ++ "\n" ++ second)).session
          = ((fresh.run first).session.run second).session
        ∧ (fresh.run (first ++ "\n" ++ second)).result
          = .error (.runtime (error.mapLine (· + lineCount first))) := by
    have runs := (run_append above below).2 fresh
    simp only [succeeds, fails, Fault.runtime.injEq] at runs
    obtain ⟨sessions, _, rfl, result⟩ := runs
    exact ⟨sessions, result⟩
  have together := (run_append above below).1
  have outcome := joined above below first second
  rw [lines] at together outcome
  exact ⟨above, below, together, first, second, outcome⟩

end Session
end Reckoner
