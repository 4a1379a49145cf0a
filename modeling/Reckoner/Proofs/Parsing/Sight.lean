import Reckoner.Proofs.Parsing.Acceptance

/-! What parsers see. A parser that succeeds has seen the tokens it reads and the one behind
them, so it reads the same from every other cursor that comes upon these tokens with as many
groups open.
-/

namespace Reckoner

-----------------------------------------------------------------------------------------
-- The tokens in front of a cursor
-----------------------------------------------------------------------------------------

namespace Cursor

/-- The cursor comes upon the given tokens next, up to the end token behind all others. -/
def Sees (c : Cursor) (tokens : List Token) : Prop :=
  tokens <+: c.rest ++ [Token.endOfInput 0]

theorem sees_peek (c : Cursor)
    : c.Sees [c.peek] := by
  cases rest : c.rest with
  | nil => simp [Sees, peek, rest]
  | cons token more => simp [Sees, peek, rest]

theorem Reads.sees {c c' : Cursor} {read tokens : List Token} (reads : c.Reads read c')
    (sees : c'.Sees tokens)
    : c.Sees (read ++ tokens) := by
  rw [Sees, reads.rest, List.append_assoc]
  exact (List.prefix_append_right_inj read).mpr sees

namespace Sees

variable {c c' : Cursor} {token : Token} {more read tokens : List Token}

theorem peek_eq (sees : c.Sees (token :: more))
    : c.peek = token := by
  cases rest : c.rest with
  | nil =>
      rw [Sees, rest, List.nil_append] at sees
      rw [(List.cons_prefix_cons.mp sees).1, peek, rest]
      rfl
  | cons first behind =>
      rw [Sees, rest, List.cons_append] at sees
      rw [(List.cons_prefix_cons.mp sees).1, peek_of_rest rest]

/-- Two cursors that come upon the same tokens come upon the same one first. -/
theorem peek_eq_peek (sees : c.Sees (read ++ [token])) (sees' : c'.Sees (read ++ [token]))
    : c'.peek = c.peek := by
  cases read with
  | nil => exact sees'.peek_eq.trans sees.peek_eq.symm
  | cons first read => exact sees'.peek_eq.trans sees.peek_eq.symm

/-- A cursor that comes upon tokens and on more behind them can read these tokens. -/
theorem split (sees : c.Sees (read ++ tokens)) (nonempty : tokens ≠ [])
    : ∃ middle, c.Reads read middle ∧ middle.Sees tokens := by
  have length := sees.length_le
  have positive := List.length_pos_iff.mpr nonempty
  simp only [List.length_append, List.length_singleton] at length
  have read_prefix : read <+: c.rest :=
    List.prefix_of_prefix_length_le ((List.prefix_append read tokens).trans sees)
      (List.prefix_append _ _) (by omega)
  obtain ⟨behind, rest⟩ := read_prefix
  let middle : Cursor :=
    { rest := behind, position := c.position + read.length, depth := c.depth }
  refine ⟨middle, ⟨rest.symm, rfl, rfl⟩, ?_⟩
  rw [Sees, ← rest, List.append_assoc] at sees
  exact (List.prefix_append_right_inj read).mp sees

theorem next (sees : c.Sees ([c.peek] ++ tokens)) (word : c.peek.kind ≠ .endOfInput)
    (nonempty : tokens ≠ [])
    : c.next.Sees tokens := by
  obtain ⟨middle, reads, behind⟩ := sees.split nonempty
  rwa [(reads.single word).2]

end Sees
end Cursor

-----------------------------------------------------------------------------------------
-- Success
-----------------------------------------------------------------------------------------

/-- A parser passes tokens and gets from one cursor to another with a value, and does so from
every cursor that comes upon these tokens and the next one with as many groups open.
-/
structure Parser.Passes {α : Type} (p : Parser α) (c : Cursor) (read : List Token) (a : α)
    (c' : Cursor)
    : Prop where
  reads : c.Reads read c'
  passes : ∀ d : Cursor, d.depth = c.depth → d.Sees (read ++ [c'.peek]) →
    ∃ d', d.Reads read d' ∧ p.run d = .ok a d'

/-- A phrase stands at every cursor that comes upon its tokens and what ends it. -/
theorem Phrase.StandsBetween.passes {level : Level} {phrase : Phrase level} {c c' : Cursor}
    (stands : phrase.StandsBetween c c')
    : level.parser.Passes c phrase.tokens phrase.expr c' := by
  refine ⟨stands.reads, fun d depth sees => ?_⟩
  obtain ⟨d', reads, behind⟩ := sees.split (by simp)
  refine ⟨d', reads, Level.run_parser_eq_ok_iff.mpr ⟨phrase, rfl, reads, ?_, ?_⟩⟩
  · rw [depth]
    exact stands.room
  · rw [behind.peek_eq]
    exact stands.ends

/-- So does a clause. -/
theorem Clause.StandsBetween.passes {clause : Clause} {c c' : Cursor}
    (stands : clause.StandsBetween c c')
    : Parser.statement.Passes c clause.tokens clause.statement c' := by
  refine ⟨stands.reads, fun d depth sees => ?_⟩
  obtain ⟨d', reads, behind⟩ := sees.split (by simp)
  refine ⟨d', reads, Parser.run_statement_eq_ok_iff.mpr ⟨clause, rfl, reads, ?_, ?_⟩⟩
  · rw [depth]
    exact stands.room
  · rw [behind.peek_eq]
    exact stands.ends

end Reckoner
