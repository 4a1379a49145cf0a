import Reckoner.Proofs.Parsing.Acceptance

/-! Parsing is local. What a parser that succeeds makes of a list depends on the tokens that it
reads there and on the kind and the text of the next one, and on nothing else: neither on what
stands in front of these or behind them nor on where in the list they stand.
-/

namespace Reckoner

-----------------------------------------------------------------------------------------
-- Cursors on a list
-----------------------------------------------------------------------------------------

/-- The cursor that has passed a number of tokens of a list, with a number of groups open. -/
def Cursor.placed (tokens : List Token) (position depth : Nat) : Cursor :=
  { rest := tokens.drop position, position := position, depth := depth }

/-- A cursor on a list that reads tokens is on that list behind them. -/
theorem Cursor.Reads.eq_placed {tokens read : List Token} {position depth : Nat} {c' : Cursor}
    (reads : (Cursor.placed tokens position depth).Reads read c')
    : c' = Cursor.placed tokens (position + read.length) depth := by
  have rest : tokens.drop position = read ++ c'.rest := reads.rest
  have behind : tokens.drop (position + read.length) = c'.rest := by
    rw [← List.drop_drop, rest, List.drop_left]
  obtain ⟨rest', position', depth'⟩ := c'
  simp only [placed, mk.injEq]
  exact ⟨behind.symm, reads.position, reads.depth⟩

/-- Tokens that stand at a place of a list are read from there. -/
theorem Cursor.reads_placed {tokens read : List Token} {position : Nat} (depth : Nat)
    (stand : (tokens.drop position).take read.length = read)
    : (Cursor.placed tokens position depth).Reads read
        (Cursor.placed tokens (position + read.length) depth) := by
  refine ⟨?_, rfl, rfl⟩
  have split := List.take_append_drop read.length (tokens.drop position)
  rw [stand, List.drop_drop] at split
  exact split.symm

-----------------------------------------------------------------------------------------
-- What is taken
-----------------------------------------------------------------------------------------

theorem Token.operator?_congr {token other : Token} (kind : other.kind = token.kind)
    (text : other.text = token.text)
    : other.operator? = token.operator? := by
  simp only [operator?, kind, text]

/-- Whether a token extends phrases is told by its kind and its text. -/
theorem Level.extends_congr (level : Level) {token other : Token}
    (kind : other.kind = token.kind) (text : other.text = token.text)
    : level.Extends other ↔ level.Extends token := by
  simp only [Extends, Token.operator?_congr kind text]

/-- A parser takes tokens between two cursors with a result if it does so between any two cursors
that have these tokens between them, with as many groups open, where the next token behind them
has the same kind and the same text.
-/
structure Parser.Takes {α : Type} (p : Parser α) (c : Cursor) (read : List Token) (a : α)
    (c' : Cursor)
    : Prop where
  reads : c.Reads read c'
  nonempty : read ≠ []
  words : ∀ token ∈ read, token.kind ≠ .endOfInput
  takes
    : ∀ d d' : Cursor,
        d.depth = c.depth
        → d.Reads read d'
        → d'.peek.kind = c'.peek.kind
        → d'.peek.text = c'.peek.text
        → p.run d = .ok a d'

theorem Parser.Takes.of_run_eq {α : Type} {p q : Parser α} {c c' : Cursor} {read : List Token}
    {a : α} (takes : q.Takes c read a c') (same : ∀ d : Cursor, p.run d = q.run d)
    : p.Takes c read a c' :=
  ⟨takes.reads, takes.nonempty, takes.words, fun d d' depth reads kind text =>
    (same d).trans (takes.takes d d' depth reads kind text)⟩

/-- A phrase that stands between two cursors is taken by the parser of its level: it stands as well
wherever its tokens do and nothing extends it.
-/
theorem Phrase.StandsBetween.takes {level : Level} {phrase : Phrase level} {c c' : Cursor}
    (stands : phrase.StandsBetween c c')
    : level.parser.Takes c phrase.tokens phrase.expr c' := by
  obtain ⟨more, derived⟩ := phrase.tokens_eq_cons
  refine ⟨stands.reads, by simp [derived], fun _ => phrase.kind_ne_endOfInput, ?_⟩
  intro d d' depth reads kind text
  have room : phrase.nesting ≤ maxOpenGroups - d.depth := depth ▸ stands.room
  have ends := (level.extends_congr kind text).not.mpr stands.ends
  exact (StandsBetween.mk reads room ends).run

/-- So is a clause by the parser of statements. -/
theorem Clause.StandsBetween.takes {clause : Clause} {c c' : Cursor}
    (stands : clause.StandsBetween c c')
    : Parser.statement.Takes c clause.tokens clause.statement c' := by
  obtain ⟨first, more, derived, -⟩ := clause.tokens_eq_cons
  refine ⟨stands.reads, by simp [derived], fun _ => clause.kind_ne_endOfInput, ?_⟩
  intro d d' depth reads kind text
  have room : clause.nesting ≤ maxOpenGroups - d.depth := depth ▸ stands.room
  have ends := ((Level.chain .additive).extends_congr kind text).not.mpr stands.ends
  exact Parser.run_statement_eq_ok_iff.mpr ⟨clause, rfl, reads, room, ends⟩

/-- Behind a phrase of the looser tier no operator can come. -/
theorem Phrase.StandsBetween.operator?_eq_none {phrase : Phrase (.chain .additive)}
    {c c' : Cursor} (stands : phrase.StandsBetween c c')
    : c'.peek.operator? = none := by
  by_contra spells
  obtain ⟨op, spelled⟩ := Option.ne_none_iff_exists'.mp spells
  exact stands.ends ⟨op, spelled, rfl⟩

-----------------------------------------------------------------------------------------
-- The rules of the grammar
-----------------------------------------------------------------------------------------

namespace Parser

/-- The rules of the grammar that have a parser of their own. -/
inductive Rule
  | primary
  | multiplicative
  | additive
  | expression
  | statement
  deriving DecidableEq, Repr

namespace Rule

/-- What the parser of a rule gives. -/
abbrev Result : Rule → Type
  | primary | multiplicative | additive | expression => Expr
  | statement => Statement

/-- The parser of a rule. -/
def parser : (rule : Rule) → Parser rule.Result
  | primary => Parser.primary
  | multiplicative => Parser.multiplicative
  | additive => Parser.additive
  | expression => Parser.expression
  | statement => Parser.statement

variable {rule : Rule} {result : rule.Result} {c c' : Cursor}

/-- What the parser of a rule reads, it takes. -/
theorem exists_takes (run : rule.parser.run c = .ok result c')
    : ∃ read, rule.parser.Takes c read result c' := by
  have ofLevel (level : Level) {e : Expr} (run : level.parser.run c = .ok e c')
      : ∃ read, level.parser.Takes c read e c' := by
    obtain ⟨phrase, rfl, stands⟩ := Level.run_parser_eq_ok_iff.mp run
    exact ⟨_, stands.takes⟩
  cases rule with
  | primary => exact ofLevel .operand run
  | multiplicative => exact ofLevel (.chain .multiplicative) run
  | additive => exact ofLevel (.chain .additive) run
  | expression =>
      obtain ⟨phrase, rfl, stands⟩ := run_expression_eq_ok_iff.mp run
      exact ⟨_, stands.takes.of_run_eq run_expression_eq_additive⟩
  | statement =>
      obtain ⟨clause, rfl, stands⟩ := run_statement_eq_ok_iff.mp run
      exact ⟨_, stands.takes⟩

/-- A parser that succeeds sees what it reads and the next token, and of that one the kind and the
text. From any place of any list where the same tokens stand, with the next one alike and with as
many groups open, it gets to the place behind them with the same result. Behind an expression the
next token is no operator, of either tier.
-/
theorem parses_locally (rule : Rule) (tokens : List Token) (position depth : Nat)
    (result : rule.Result) (behind : Cursor)
    (run : rule.parser.run (.placed tokens position depth) = .ok result behind)
    : behind = .placed tokens behind.position depth
      ∧ (∀ (tokens' : List Token) (position' : Nat),
          let count := behind.position - position
          let behind' := Cursor.placed tokens' (position' + count) depth
          (tokens'.drop position').take count = (tokens.drop position).take count
          → behind'.peek.kind = behind.peek.kind
          → behind'.peek.text = behind.peek.text
          → rule.parser.run (.placed tokens' position' depth) = .ok result behind')
      ∧ (rule = .expression → behind.peek.operator? = none) := by
  obtain ⟨read, takes⟩ := exists_takes run
  have reads := takes.reads
  have moved : behind.position = position + read.length := reads.position
  have count : behind.position - position = read.length := by omega
  refine ⟨moved ▸ reads.eq_placed, ?_, ?_⟩
  · intro tokens' position'
    have rest : tokens.drop position = read ++ behind.rest := reads.rest
    simp only [count, rest, List.take_left]
    intro stand kind text
    exact takes.takes _ _ rfl (Cursor.reads_placed depth stand) kind text
  · intro expression
    subst expression
    obtain ⟨phrase, -, stands⟩ := run_expression_eq_ok_iff.mp run
    exact stands.operator?_eq_none

/-- A sum at the end of a list, with no end token behind it, is the same in the middle of another
one, where an end token on some line is next.
-/
theorem parses_locally_sum
    : let a : Token := { kind := .identifier, text := "a", line := 3 }
      let plus : Token := { kind := .operator, text := "+", line := 4 }
      let sum : Expr := .binary (.reference "a" 3) .add (.reference "a" 3) 4
      let tokens := [a, plus, a]
      let tokens' := [plus, a, plus, a, .endOfInput 7, plus]
      Rule.expression.parser.run (.placed tokens 0 2) = .ok sum (.placed tokens 3 2)
      ∧ Rule.expression.parser.run (.placed tokens' 1 2) = .ok sum (.placed tokens' 4 2)
      ∧ (Cursor.placed tokens 3 2).peek.operator? = none := by
  intro a plus sum tokens tokens'
  have run : Rule.expression.parser.run (.placed tokens 0 2) = .ok sum (.placed tokens 3 2) := rfl
  obtain ⟨-, elsewhere, ends⟩ := parses_locally .expression tokens 0 2 sum _ run
  exact ⟨run, elsewhere tokens' 1 rfl rfl rfl, ends rfl⟩

end Rule
end Parser
end Reckoner
