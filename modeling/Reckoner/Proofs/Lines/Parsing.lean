import Reckoner.Proofs.Lines.Mapping

/-! Parsing on other lines, success or not. No parser looks at a line, so on tokens that are
moved to other lines it takes the same steps and comes to the same outcome, on other lines.
-/

namespace Reckoner

variable (move : Nat → Nat)

/-- The error on the line that its own is mapped to. -/
def SyntaxError.mapLine : SyntaxError → SyntaxError
  | unexpectedToken found => .unexpectedToken (found.mapLine move)
  | expectedToken expected found context => .expectedToken expected (found.mapLine move) context
  | invalidNumber text line => .invalidNumber text (move line)
  | nestingTooDeep line => .nestingTooDeep (move line)

namespace Cursor

/-- The cursor in front of the same tokens on other lines. -/
def mapLines (c : Cursor) : Cursor :=
  { c with rest := c.rest.map (Token.mapLine move) }

variable {move}

/-- The end token behind all others is on no line, which has to stay as it is. -/
theorem peek_mapLines (fixed : move 0 = 0) (c : Cursor)
    : (c.mapLines move).peek = c.peek.mapLine move := by
  unfold peek mapLines
  cases c.rest with
  | nil => simp [Token.mapLine, Token.endOfInput, fixed]
  | cons token rest => rfl

theorem next_mapLines (c : Cursor)
    : (c.mapLines move).next = c.next.mapLines move := by
  obtain ⟨rest, position, depth⟩ := c
  cases rest with
  | nil => rfl
  | cons token rest =>
      by_cases ended : token.kind = .endOfInput <;>
        simp [next, mapLines, Token.mapLine, ended]

end Cursor

namespace Parser

/-- The outcome of a run with every line mapped, those of its value by the given function. -/
def mapOutcome {α : Type} (f : α → α)
    : EStateM.Result SyntaxError Cursor α → EStateM.Result SyntaxError Cursor α
  | .ok a c => .ok (f a) (c.mapLines move)
  | .error error c => .error (error.mapLine move) (c.mapLines move)

/-- One parser follows another if it does the same on tokens that are on other lines. -/
def Follows {α : Type} (f : α → α) (p' p : Parser α) : Prop :=
  ∀ c : Cursor, p'.run (c.mapLines move) = mapOutcome move f (p.run c)

-----------------------------------------------------------------------------------------
-- Steps
-----------------------------------------------------------------------------------------

namespace Follows

variable {move} {α β : Type} {f : α → α} {g : β → β}

theorem pure (a : α)
    : Follows move f (pure (f a)) (pure a) :=
  fun _ => rfl

theorem throw (error : SyntaxError)
    : Follows move f (throw (error.mapLine move)) (throw error) :=
  fun _ => rfl

theorem get
    : Follows move (Cursor.mapLines move) get get :=
  fun _ => rfl

theorem bind {p p' : Parser α} {q q' : α → Parser β} (first : Follows move f p' p)
    (rest : ∀ a, Follows move g (q' (f a)) (q a))
    : Follows move g (p' >>= q') (p >>= q) := by
  intro c
  rw [EStateM.run_bind, EStateM.run_bind, first c]
  cases p.run c with
  | ok a middle => exact rest a middle
  | error error stopped => rfl

theorem peek (fixed : move 0 = 0)
    : Follows move (Token.mapLine move) peek peek := by
  intro c
  rw [run_peek, run_peek, Cursor.peek_mapLines fixed]
  rfl

theorem advance (fixed : move 0 = 0)
    : Follows move (Token.mapLine move) advance advance := by
  intro c
  rw [run_advance, run_advance, Cursor.peek_mapLines fixed, Cursor.next_mapLines]
  rfl

theorem expect (fixed : move 0 = 0) (kind : TokenKind) (context : String)
    : Follows move (Token.mapLine move) (expect kind context) (expect kind context) := by
  intro c
  rw [run_expect, run_expect, Cursor.peek_mapLines fixed, Cursor.next_mapLines]
  have kinds : (c.peek.mapLine move).kind = c.peek.kind := rfl
  rw [kinds]
  split <;> rfl

theorem enterGroup (line : Nat)
    : Follows move id (enterGroup (move line)) (enterGroup line) := by
  intro c
  rw [run_enterGroup, run_enterGroup]
  have depths : (c.mapLines move).depth = c.depth := rfl
  rw [depths]
  split <;> rfl

theorem leaveGroup
    : Follows move id leaveGroup leaveGroup :=
  fun _ => rfl

-----------------------------------------------------------------------------------------
-- Expressions
-----------------------------------------------------------------------------------------

theorem primaryWith (fixed : move 0 = 0) {inner : Parser Expr}
    (inside : Follows move (Expr.mapLines move) inner inner)
    : Follows move (Expr.mapLines move) (primaryWith inner) (primaryWith inner) := by
  refine (peek fixed).bind fun token => ?_
  obtain ⟨kind, text, line⟩ := token
  cases kind with
  | number =>
      refine (advance fixed).bind fun _ => ?_
      simp only [Token.mapLine]
      cases Binary64.ofText? text with
      | some value => exact pure (Expr.number value line)
      | none => exact throw (.invalidNumber text line)
  | nullKeyword => exact (advance fixed).bind fun _ => pure (Expr.null line)
  | identifier => exact (advance fixed).bind fun _ => pure (Expr.reference text line)
  | openParen =>
      exact (advance fixed).bind fun _ => (enterGroup line).bind fun _ =>
        inside.bind fun e => (expect fixed .closeParen groupContext).bind fun _ =>
          leaveGroup.bind fun _ => pure e
  | letKeyword | operator | equals | closeParen | endOfInput => exact throw (.unexpectedToken _)

/-- A chain follows as its operands do, by induction on the bound. -/
theorem chainFrom (fixed : move 0 = 0) {operand : Parser Expr}
    (operands : Follows move (Expr.mapLines move) operand operand)
    (accepts : Operator → Bool) (bound : List Token) (left : Expr)
    : Follows move (Expr.mapLines move)
        (chainFrom accepts operand (bound.map (Token.mapLine move)) (left.mapLines move))
        (chainFrom accepts operand bound left) := by
  induction bound generalizing left with
  | nil => exact pure left
  | cons token bound ih =>
      refine (peek fixed).bind fun sign => ?_
      have spelled : (sign.mapLine move).operator? = sign.operator? := rfl
      rw [spelled]
      cases sign.operator? with
      | none => exact pure left
      | some op =>
          cases accepted : accepts op with
          | false => simpa [accepted] using pure left
          | true =>
              simp only [accepted, if_true]
              exact (advance fixed).bind fun _ => operands.bind fun right =>
                ih (.binary left op right sign.line)

theorem chain (fixed : move 0 = 0) {operand : Parser Expr}
    (operands : Follows move (Expr.mapLines move) operand operand) (accepts : Operator → Bool)
    : Follows move (Expr.mapLines move) (chain accepts operand) (chain accepts operand) :=
  operands.bind fun left => get.bind fun c => operands.chainFrom fixed accepts c.rest left

/-- Expressions within any number of groups follow, by induction on the number. -/
theorem expressionWithin (fixed : move 0 = 0) (groups : Nat)
    : Follows move (Expr.mapLines move) (expressionWithin groups)
        (expressionWithin groups) := by
  induction groups with
  | zero => exact (peek fixed).bind fun token => throw (.nestingTooDeep token.line)
  | succ groups ih => exact ((ih.primaryWith fixed).chain fixed _).chain fixed _

theorem expression (fixed : move 0 = 0)
    : Follows move (Expr.mapLines move) expression expression :=
  get.bind fun c => expressionWithin fixed (maxOpenGroups - c.depth + 1)

-----------------------------------------------------------------------------------------
-- Programs
-----------------------------------------------------------------------------------------

theorem declaration (fixed : move 0 = 0)
    : Follows move (Statement.mapLines move) declaration declaration :=
  (advance fixed).bind fun keyword =>
    (expect fixed .identifier declarationContext).bind fun name =>
      (expect fixed .equals declarationContext).bind fun _ =>
        (expression fixed).bind fun initializer =>
          pure (Statement.declaration name.text initializer keyword.line)

theorem statement (fixed : move 0 = 0)
    : Follows move (Statement.mapLines move) statement statement := by
  refine (peek fixed).bind fun first => ?_
  have kinds : (first.mapLine move).kind = first.kind := rfl
  rw [kinds]
  split
  · exact declaration fixed
  · exact (expression fixed).bind fun value => pure (Statement.expression value first.line)

/-- Statements follow one after another, by induction on the bound. -/
theorem statementsFrom (fixed : move 0 = 0) (bound : List Token) (parsed : Program)
    : Follows move (List.map (Statement.mapLines move))
        (statementsFrom (bound.map (Token.mapLine move)) (parsed.map (Statement.mapLines move)))
        (statementsFrom bound parsed) := by
  have ended (parsed : Program)
      : Follows move (List.map (Statement.mapLines move))
          (Pure.pure (parsed.map (Statement.mapLines move)).reverse)
          (Pure.pure parsed.reverse) := by
    rw [← List.map_reverse]
    exact pure parsed.reverse
  induction bound generalizing parsed with
  | nil => exact ended parsed
  | cons token bound ih =>
      refine get.bind fun c => ?_
      have atEnd : (c.mapLines move).atEnd = c.atEnd := by
        rw [Cursor.atEnd, Cursor.atEnd, Cursor.peek_mapLines fixed]
        rfl
      rw [atEnd]
      split
      · exact ended parsed
      · exact (statement fixed).bind fun next => ih (next :: parsed)

theorem program (fixed : move 0 = 0)
    : Follows move (List.map (Statement.mapLines move)) program program :=
  get.bind fun c => statementsFrom fixed c.rest []

end Follows
end Parser

/-- Tokens on other lines are parsed as the same program on other lines, or refused with the
same error on another line.
-/
theorem Program.ofTokens_map_mapLine {move : Nat → Nat} (fixed : move 0 = 0)
    (tokens : List Token)
    : ofTokens (tokens.map (Token.mapLine move))
      = ((ofTokens tokens).map (List.map (Statement.mapLines move))).mapError
          (SyntaxError.mapLine move) := by
  have run : Parser.program.run (Cursor.start (tokens.map (Token.mapLine move))) = _ :=
    Parser.Follows.program fixed (Cursor.start tokens)
  rw [ofTokens, ofTokens, run]
  cases Parser.program.run (Cursor.start tokens) <;> rfl

end Reckoner
