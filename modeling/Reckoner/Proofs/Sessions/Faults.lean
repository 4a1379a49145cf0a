import Reckoner.Proofs.Evaluation.Blame
import Reckoner.Proofs.Grammar.Nodes
import Reckoner.Proofs.Parsing.Ending
import Reckoner.Proofs.Scanning.Refusal
import Reckoner.Proofs.Sessions.Persistence

/-! Where faults are found. Whichever stage fails on a source, the line of its error is that of a
character or of a token of the source, and never the line of the end behind all tokens.
-/

namespace Reckoner

/-- An evaluation error blames a token if it is about it: the name that has no value, the keyword
of the declaration, or the operator that was not applied, on its line.
-/
def EvalError.Blames (token : Token) : EvalError → Prop
  | unknownVariable name line =>
      token.kind = .identifier ∧ name = token.text ∧ line = token.line
  | alreadyDeclared _ line => token.kind = .letKeyword ∧ line = token.line
  | notANumber _ _ line => (∃ op, token.operator? = some op) ∧ line = token.line
  | divisionByZero line =>
      (∃ op, token.operator? = some op ∧ op.divides) ∧ line = token.line

/-- A fault is found in a source at the first foreign character, on the line behind the newlines
in front of it, or at a token that the scan finds there, the end token included.
-/
def Fault.IsFoundIn (source : String) : Fault → Prop
  | lexical error =>
      ∃ front behind,
        source.toList = front ++ error.character :: behind
        ∧ (∀ c ∈ front, isForeign c = false)
        ∧ isForeign error.character
        ∧ error.line = 1 + front.count '\n'
  | grammatical error =>
      ∃ tokens, scan source = .ok tokens ∧ ∃ token ∈ tokens, error.Blames token
  | runtime error =>
      ∃ tokens, scan source = .ok tokens ∧ ∃ token ∈ tokens, error.Blames token

-----------------------------------------------------------------------------------------
-- Lines
-----------------------------------------------------------------------------------------

theorem EvalError.Blames.line_eq {error : EvalError} {token : Token}
    (blames : error.Blames token)
    : error.line = token.line := by
  cases error with
  | unknownVariable name line => exact blames.2.2
  | alreadyDeclared name line | notANumber role found line | divisionByZero line => exact blames.2

/-- Every token of a source is on a line of it, also the one behind the last word. -/
theorem line_le_of_scan {source : String} {tokens : List Token}
    (scanned : scan source = .ok tokens)
    : ∀ token ∈ tokens, 1 ≤ token.line ∧ token.line ≤ 1 + source.toList.count '\n' := by
  obtain ⟨spelled, last, spell, rfl⟩ := scan_eq_ok_iff.mp scanned
  obtain ⟨least, within⟩ := RunsSpell.line_le spell
  rw [← spell.last_eq]
  refine List.forall_mem_append.mpr ⟨within, List.forall_mem_singleton.mpr ?_⟩
  exact ⟨least, Nat.le_refl _⟩

theorem Fault.IsFoundIn.line_le {source : String} {fault : Fault}
    (found : fault.IsFoundIn source)
    : 1 ≤ fault.line ∧ fault.line ≤ 1 + source.toList.count '\n' := by
  cases fault with
  | lexical error =>
      obtain ⟨front, behind, split, -, -, line⟩ := found
      rw [Fault.line, line, split, List.count_append]
      omega
  | grammatical error =>
      obtain ⟨tokens, scanned, token, member, blames⟩ := found
      rw [Fault.line, blames.line_eq]
      exact line_le_of_scan scanned token member
  | runtime error =>
      obtain ⟨tokens, scanned, token, member, blames⟩ := found
      rw [Fault.line, blames.line_eq]
      exact line_le_of_scan scanned token member

-----------------------------------------------------------------------------------------
-- Faults of the text
-----------------------------------------------------------------------------------------

/-- The scan finds one end token, and it is the last. -/
theorem throughEnd_of_scan {source : String} {tokens : List Token}
    (scanned : scan source = .ok tokens)
    : Token.throughEnd tokens = tokens := by
  obtain ⟨spelled, last, spell, rfl⟩ := scan_eq_ok_iff.mp scanned
  exact Token.throughEnd_append_cons (RunsSpell.kind_ne_endOfInput spell) rfl []

/-- A source that is no program has a fault in itself. -/
theorem Program.isFoundIn_of_ofSource {source : String} {fault : Fault}
    (refused : ofSource source = .error fault)
    : fault.IsFoundIn source := by
  unfold ofSource at refused
  cases scanned : scan source with
  | error error =>
      obtain ⟨front, c, behind, split, native, foreign⟩ :=
        exists_first_foreign (exists_foreign_of_scan_eq_error scanned)
      rw [scan_of_foreign split native foreign] at refused
      cases refused
      exact ⟨front, behind, split, native, foreign, rfl⟩
  | ok tokens =>
      rw [scanned] at refused
      cases parsed : ofTokens tokens with
      | ok program => simp [parsed, Except.mapError] at refused
      | error error =>
          simp only [parsed, Except.mapError] at refused
          cases refused
          obtain ⟨read, token, stops, within⟩ := exists_stopsOn parsed
          rw [throughEnd_of_scan scanned] at within
          exact ⟨tokens, scanned, token, within.subset (by simp), stops.blames⟩

-----------------------------------------------------------------------------------------
-- Faults of the execution
-----------------------------------------------------------------------------------------

/-- The token of a node that is at fault is to blame for the error. -/
theorem Token.StandsFor.blames {token : Token} {e : Expr} {env : Environment}
    {error : EvalError} (stands : token.StandsFor e.node) (fault : e.fault? env = some error)
    : error.Blames token := by
  cases e with
  | number value line | null line => cases fault
  | reference name line =>
      simp only [Expr.fault?] at fault
      split at fault <;> cases fault
      exact stands
  | binary left op right line =>
      obtain ⟨spells, line⟩ := stands
      simp only [Expr.fault?] at fault
      split at fault
      · cases fault
        exact ⟨⟨op, spells⟩, line⟩
      · split at fault
        · cases fault
          exact ⟨⟨op, spells⟩, line⟩
        · split at fault <;> cases fault
          next divided =>
            exact ⟨⟨op, spells, (Bool.and_eq_true_iff.mp divided).1⟩, line⟩

/-- Where the expression of a phrase fails, a token of the phrase is to blame. -/
theorem Phrase.exists_blamed {level : Level} {phrase : Phrase level} {env : Environment}
    {error : EvalError} (failed : phrase.expr.denote env = .error error)
    : ∃ token ∈ phrase.tokens, error.Blames token := by
  have first := Expr.findSome?_fault? env phrase.expr
  rw [failed] at first
  obtain ⟨inner, inside, fault⟩ := List.exists_of_findSome?_eq_some first
  have node : inner.node ∈ phrase.expr.postorder := by
    rw [← Expr.map_node_subexpressions]
    exact List.mem_map_of_mem inside
  obtain ⟨token, member, stands⟩ := phrase.exists_standsFor inner.node node
  exact ⟨token, member, stands.blames fault⟩

/-- Where the statement of a clause fails, a token of the clause is to blame. -/
theorem Clause.exists_blamed {clause : Clause} {env : Environment} {error : EvalError}
    (failed : (clause.statement.execute env).result = .error error)
    : ∃ token ∈ clause.tokens, error.Blames token := by
  cases clause with
  | expression value =>
      simp only [statement, Statement.execute, Expr.evaluate_eq] at failed
      exact value.exists_blamed failed
  | declaration keyword name equals initializer opens names defines =>
      cases bound : env.containsLocal name.text with
      | true =>
          rw [statement, Statement.execute_declaration_of_containsLocal bound] at failed
          cases failed
          exact ⟨keyword, List.mem_cons_self, opens, rfl⟩
      | false =>
          rw [statement, Statement.execute_declaration_of_not_containsLocal bound] at failed
          cases evaluated : initializer.expr.denote env with
          | ok value => simp [evaluated] at failed
          | error found =>
              simp only [evaluated, Except.error.injEq] at failed
              obtain ⟨token, member, blames⟩ := initializer.exists_blamed evaluated
              exact ⟨token, by simp [tokens, member], failed ▸ blames⟩

/-- Where the program of a derivation fails, a token of the derivation is to blame: one of the
clause of the statement that failed.
-/
theorem Derivation.exists_blamed {derivation : Derivation} {env : Environment}
    {error : EvalError} (failed : (derivation.program.execute env).result = .error error)
    : ∃ token ∈ derivation.tokens, error.Blames token := by
  obtain ⟨i, statement, -, found, -, fails⟩ := Program.exists_failsAt failed
  obtain ⟨clause, inside, rfl⟩ := List.mem_map.mp (List.mem_of_getElem? found)
  obtain ⟨token, member, blames⟩ := Clause.exists_blamed fails
  exact ⟨token, List.mem_flatMap.mpr ⟨clause, inside, member⟩, blames⟩

-----------------------------------------------------------------------------------------
-- Sources
-----------------------------------------------------------------------------------------

namespace Session

/-- Whatever a session holds, every fault of a run is found in the source, on one of its lines: at
the first character that is foreign, at a token that the scan finds and the parser stops on, or at
the name, the operator or the keyword of a declaration that failed. None is on line zero, where
the end behind all tokens would be.
-/
theorem run_faults_on_real_line {session : Session} {source : String} {fault : Fault}
    (failed : (session.run source).result = .error fault)
    : (1 ≤ fault.line ∧ fault.line ≤ 1 + source.toList.count '\n')
      ∧ fault.IsFoundIn source := by
  have found : fault.IsFoundIn source := by
    cases parsed : Program.ofSource source with
    | error refused =>
        rw [(run_of_ofSource_error parsed session).1] at failed
        cases failed
        exact Program.isFoundIn_of_ofSource parsed
    | ok program =>
        rw [(run_of_ofSource parsed session).1] at failed
        obtain ⟨derivation, last, spell, rfl, -⟩ := Program.ofSource_eq_ok_iff.mp parsed
        cases outcome : (Program.execute session.environment derivation.program).result with
        | ok value => simp [outcome, Except.mapError] at failed
        | error error =>
            simp only [outcome, Except.mapError] at failed
            cases failed
            obtain ⟨token, member, blames⟩ := Derivation.exists_blamed outcome
            exact ⟨_, scan_eq_ok_iff.mpr ⟨_, last, spell, rfl⟩, token,
              List.mem_append_left _ member, blames⟩
  exact ⟨found.line_le, found⟩

/-- A sum behind a number has its sign on the third of four lines, and is at fault there for a null
that stands in a group on the second.
-/
theorem run_faults_on_real_line_null_operand
    : let source := "1\n(null)\n+\n2"
      let fault : Fault := .runtime (.notANumber "left operand" "null" 3)
      (fresh.run source).result = .error fault
      ∧ (1 ≤ fault.line ∧ fault.line ≤ 1 + source.toList.count '\n')
      ∧ fault.IsFoundIn source := by
  intro source fault
  have failed : (fresh.run source).result = .error fault := by decide +kernel
  exact ⟨failed, run_faults_on_real_line failed⟩

end Session
end Reckoner
