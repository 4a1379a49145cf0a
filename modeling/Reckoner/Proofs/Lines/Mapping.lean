import Reckoner.Proofs.Parsing.Acceptance

/-! Putting words on other lines. A parser looks at no line, so a program whose tokens are
moved to other lines is the same program with its own lines moved.
-/

namespace Reckoner

variable (move : Nat → Nat)

/-- The token on the line that its own is mapped to. -/
def Token.mapLine (token : Token) : Token :=
  { token with line := move token.line }

/-- The expression with every line mapped. -/
def Expr.mapLines : Expr → Expr
  | number value line => .number value (move line)
  | null line => .null (move line)
  | reference name line => .reference name (move line)
  | binary left op right line => .binary left.mapLines op right.mapLines (move line)

/-- The statement with every line mapped. -/
def Statement.mapLines : Statement → Statement
  | expression value line => .expression (value.mapLines move) (move line)
  | declaration name initializer line =>
      .declaration name (initializer.mapLines move) (move line)

namespace Phrase

/-- The phrase with every token on the line that its own is mapped to. -/
def mapLines {level : Level} : Phrase level → Phrase level
  | number token value kind reads => .number (token.mapLine move) value kind reads
  | null token kind => .null (token.mapLine move) kind
  | name token kind => .name (token.mapLine move) kind
  | group opening inner closing opens closes =>
      .group (opening.mapLine move) inner.mapLines (closing.mapLine move) opens closes
  | first operand => .first operand.mapLines
  | joined left sign op right spells accepted =>
      .joined left.mapLines (sign.mapLine move) op right.mapLines spells accepted

variable {level : Level} (phrase : Phrase level)

theorem tokens_mapLines
    : (phrase.mapLines move).tokens = phrase.tokens.map (Token.mapLine move) := by
  induction phrase with
  | number token | null token | name token => rfl
  | group opening inner closing opens closes innerIH => simp [mapLines, tokens, innerIH]
  | first operand operandIH => exact operandIH
  | joined left sign op right spells accepted leftIH rightIH =>
      simp [mapLines, tokens, leftIH, rightIH]

theorem head_mapLines
    : (phrase.mapLines move).head = phrase.head.mapLine move := by
  induction phrase with
  | number token | null token | name token => rfl
  | group opening inner closing opens closes innerIH => rfl
  | first operand operandIH => exact operandIH
  | joined left sign op right spells accepted leftIH rightIH => exact leftIH

theorem expr_mapLines
    : (phrase.mapLines move).expr = phrase.expr.mapLines move := by
  induction phrase with
  | number token | null token | name token => rfl
  | group opening inner closing opens closes innerIH => exact innerIH
  | first operand operandIH => exact operandIH
  | joined left sign op right spells accepted leftIH rightIH =>
      simp only [mapLines, expr, Expr.mapLines, leftIH, rightIH, Token.mapLine]

theorem nesting_mapLines
    : (phrase.mapLines move).nesting = phrase.nesting := by
  induction phrase with
  | number token | null token | name token => rfl
  | group opening inner closing opens closes innerIH => simp only [mapLines, nesting, innerIH]
  | first operand operandIH => exact operandIH
  | joined left sign op right spells accepted leftIH rightIH =>
      simp only [mapLines, nesting, leftIH, rightIH]

end Phrase

namespace Clause

/-- The clause with every token on the line that its own is mapped to. -/
def mapLines : Clause → Clause
  | expression value => .expression (value.mapLines move)
  | declaration keyword name equals initializer opens names defines =>
      .declaration (keyword.mapLine move) (name.mapLine move) (equals.mapLine move)
        (initializer.mapLines move) opens names defines

variable (clause : Clause)

theorem tokens_mapLines
    : (clause.mapLines move).tokens = clause.tokens.map (Token.mapLine move) := by
  cases clause <;> simp [mapLines, tokens, Phrase.tokens_mapLines]

theorem statement_mapLines
    : (clause.mapLines move).statement = clause.statement.mapLines move := by
  cases clause with
  | expression value =>
      simp only [mapLines, statement, Statement.mapLines, Phrase.expr_mapLines,
        Phrase.head_mapLines, Token.mapLine]
  | declaration keyword name equals initializer =>
      simp only [mapLines, statement, Statement.mapLines, Phrase.expr_mapLines, Token.mapLine]

theorem nesting_mapLines
    : (clause.mapLines move).nesting = clause.nesting := by
  cases clause <;> exact Phrase.nesting_mapLines move _

end Clause

namespace Derivation

/-- Tokens on other lines are derived by the clauses on those lines, one for one. -/
theorem tokens_map (derivation : Derivation)
    : tokens (derivation.map (Clause.mapLines move))
      = derivation.tokens.map (Token.mapLine move) := by
  simp only [tokens, List.flatMap_map, List.map_flatMap, Clause.tokens_mapLines]

theorem program_map (derivation : Derivation)
    : program (derivation.map (Clause.mapLines move))
      = derivation.program.map (Statement.mapLines move) := by
  simp only [program, List.map_map]
  apply List.map_congr_left
  intro clause _
  exact clause.statement_mapLines move

theorem WithinLimit.map {derivation : Derivation} (within : derivation.WithinLimit)
    : WithinLimit (derivation.map (Clause.mapLines move)) := by
  intro clause member
  obtain ⟨original, found, rfl⟩ := List.mem_map.mp member
  rw [Clause.nesting_mapLines]
  exact within original found

end Derivation
end Reckoner
