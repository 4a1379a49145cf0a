import Reckoner.Proofs.Lines.Parsing
import Reckoner.Proofs.Scanning.Lexeme
import Reckoner.Proofs.Sessions.Persistence

/-! Layout and what sources do. Layout tells lines, and lines decide nothing: two sources with
the same lexemes are the same program but for its lines, and sessions run them alike.
-/

namespace Reckoner

/-- Puts everything on the same line. -/
def forgetLine (_ : Nat) : Nat :=
  0

/-- The fault on the line that its own is mapped to. -/
def Fault.mapLine (move : Nat → Nat) : Fault → Fault
  | lexical error => .lexical { error with line := move error.line }
  | grammatical error => .grammatical (error.mapLine move)
  | runtime error => .runtime (error.mapLine move)

/-- Two programs are the same but for their lines. -/
def Program.AgreesWith (p q : Program) : Prop :=
  p.map (Statement.mapLines forgetLine) = q.map (Statement.mapLines forgetLine)

/-- Two outcomes agree if they are related values, or faults that are the same but for their
lines.
-/
def OutcomesAgree {α : Type} (related : α → α → Prop) : Except Fault α → Except Fault α → Prop
  | .ok a, .ok b => related a b
  | .error fault, .error other => fault.mapLine forgetLine = other.mapLine forgetLine
  | _, _ => False

/-- Outcomes agree if they are the same once lines are forgotten. -/
theorem outcomesAgree_iff {α β : Type} {forget : α → β} {first second : Except Fault α}
    : OutcomesAgree (fun a b => forget a = forget b) first second
      ↔ (first.map forget).mapError (Fault.mapLine forgetLine)
        = (second.map forget).mapError (Fault.mapLine forgetLine) := by
  cases first <;> cases second <;> simp [OutcomesAgree, Except.map, Except.mapError]

theorem Token.map_mapLine_forgetLine (tokens : List Token)
    : tokens.map (Token.mapLine forgetLine)
      = (tokens.map Token.lexeme).map (Lexeme.onLine · 0) := by
  rw [List.map_map]
  rfl

namespace Program

/-- Tokens with the same lexemes are parsed alike, or refused alike. -/
theorem ofTokens_agree {tokens others : List Token}
    (same : tokens.map Token.lexeme = others.map Token.lexeme)
    : OutcomesAgree AgreesWith ((ofTokens tokens).mapError .grammatical)
        ((ofTokens others).mapError .grammatical) := by
  have forgotten (tokens : List Token)
      : ((((ofTokens tokens).mapError .grammatical).map
            (List.map (Statement.mapLines forgetLine))).mapError
          (Fault.mapLine forgetLine))
        = (ofTokens ((tokens.map Token.lexeme).map (Lexeme.onLine · 0))).mapError
            .grammatical := by
    rw [← Token.map_mapLine_forgetLine, ofTokens_map_mapLine rfl]
    cases ofTokens tokens <;> rfl
  refine outcomesAgree_iff.mpr ?_
  rw [forgotten, forgotten, same]

/-- Programs that are the same but for their lines do the same, and fail alike. -/
theorem AgreesWith.execute {p q : Program} (agree : p.AgreesWith q) (env : Environment)
    : OutcomesAgree Eq ((p.execute env).result.mapError .runtime)
        ((q.execute env).result.mapError .runtime)
      ∧ (p.execute env).environment = (q.execute env).environment := by
  have executed := congrArg (Program.execute env) agree
  rw [execute_map_mapLines, execute_map_mapLines] at executed
  have environments := congrArg Execution.environment executed
  have results := congrArg (·.result.mapError Fault.runtime) executed
  have forgotten (result : Except EvalError Value)
      : ((result.mapError .runtime).map id).mapError (Fault.mapLine forgetLine)
        = (result.mapError (EvalError.mapLine forgetLine)).mapError .runtime := by
    cases result <;> rfl
  refine ⟨?_, environments⟩
  change OutcomesAgree (fun a b => id a = id b) _ _
  rw [outcomesAgree_iff, forgotten, forgotten]
  exact results

end Program

namespace Session

/-- Layout decides nothing but lines. Two sources that are scanned as the same lexemes are the
same program but for its lines, or refused with the same error but for its line; and any
session runs them with the same value, or the same error but for its line, and is the same
session afterwards.
-/
theorem run_ignores_layout {source other : String} {tokens others : List Token}
    (scanned : scan source = .ok tokens) (scanned' : scan other = .ok others)
    (same : tokens.map Token.lexeme = others.map Token.lexeme)
    : OutcomesAgree Program.AgreesWith (Program.ofSource source) (Program.ofSource other)
      ∧ ∀ session : Session,
          OutcomesAgree Eq (session.run source).result (session.run other).result
          ∧ (session.run source).session = (session.run other).session := by
  have agree : OutcomesAgree Program.AgreesWith (Program.ofSource source)
      (Program.ofSource other) := by
    rw [Program.ofSource, Program.ofSource, scanned, scanned']
    exact Program.ofTokens_agree same
  refine ⟨agree, fun session => ?_⟩
  cases parsed : Program.ofSource source with
  | error fault =>
      cases parsed' : Program.ofSource other with
      | error fault' =>
          rw [parsed, parsed'] at agree
          rw [(run_of_ofSource_error parsed session).1, (run_of_ofSource_error parsed session).2,
            (run_of_ofSource_error parsed' session).1, (run_of_ofSource_error parsed' session).2]
          exact ⟨agree, rfl⟩
      | ok q =>
          rw [parsed, parsed'] at agree
          exact agree.elim
  | ok p =>
      cases parsed' : Program.ofSource other with
      | error fault' =>
          rw [parsed, parsed'] at agree
          exact agree.elim
      | ok q =>
          rw [parsed, parsed'] at agree
          obtain ⟨results, environments⟩ := Program.AgreesWith.execute agree session.environment
          rw [(run_of_ofSource parsed session).1, (run_of_ofSource parsed session).2,
            (run_of_ofSource parsed' session).1, (run_of_ofSource parsed' session).2]
          exact ⟨results, congrArg Session.mk environments⟩

/-- A quotient on one line and on three: both fail at the sign, and on its own line. -/
theorem run_ignores_layout_null_quotient
    : let lexemes : List Lexeme :=
        [⟨.nullKeyword, "null"⟩, ⟨.operator, "/"⟩, ⟨.number, "0"⟩, ⟨.endOfInput, ""⟩]
      (scan "null/0").map (List.map Token.lexeme) = .ok lexemes
      ∧ (scan "null\n/\n 0").map (List.map Token.lexeme) = .ok lexemes
      ∧ OutcomesAgree Eq (fresh.run "null/0").result (fresh.run "null\n/\n 0").result
      ∧ (fresh.run "null\n/\n 0").result
        = .error (.runtime (.notANumber "left operand" "null" 2)) := by
  intro lexemes
  have scanned : scan "null/0"
      = .ok [⟨.nullKeyword, "null", 1⟩, ⟨.operator, "/", 1⟩, ⟨.number, "0", 1⟩,
          ⟨.endOfInput, "", 1⟩] := by
    decide +kernel
  have scanned' : scan "null\n/\n 0"
      = .ok [⟨.nullKeyword, "null", 1⟩, ⟨.operator, "/", 2⟩, ⟨.number, "0", 3⟩,
          ⟨.endOfInput, "", 3⟩] := by
    decide +kernel
  refine ⟨by rw [scanned]; rfl, by rw [scanned']; rfl, ?_, by decide +kernel⟩
  exact ((run_ignores_layout scanned scanned' rfl).2 fresh).1

end Session
end Reckoner
