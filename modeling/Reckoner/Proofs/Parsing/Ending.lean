import Reckoner.Proofs.Parsing.Viability

/-! Where token lists end. The parser gets no further than the first end token and comes upon one
behind a list that has none, so what it makes of a list is settled by the tokens up to there.
-/

namespace Reckoner

-----------------------------------------------------------------------------------------
-- The tokens up to the end
-----------------------------------------------------------------------------------------

namespace Token

/-- The tokens up to the end are the first ones that a cursor at the start comes upon. -/
theorem throughEnd_prefix (tokens : List Token)
    : throughEnd tokens <+: tokens ++ [endOfInput 0] := by
  induction tokens with
  | nil => exact List.prefix_rfl
  | cons token rest ih =>
      rw [throughEnd]
      split
      · exact List.prefix_append [token] _
      · exact (List.prefix_cons_inj token).mpr ih

theorem beforeEnd_throughEnd (tokens : List Token)
    : beforeEnd (throughEnd tokens) = beforeEnd tokens := by
  induction tokens with
  | nil => rfl
  | cons token rest ih =>
      rw [throughEnd]
      split
      · next ends => simp [beforeEnd, ends]
      · next word =>
          rw [beforeEnd, beforeEnd, List.takeWhile_cons_of_pos (by simpa using word),
            List.takeWhile_cons_of_pos (by simpa using word)]
          exact congrArg _ ih

variable {front : List Token} (words : ∀ token ∈ front, token.kind ≠ .endOfInput)

include words

theorem throughEnd_append (behind : List Token)
    : throughEnd (front ++ behind) = front ++ throughEnd behind := by
  induction front with
  | nil => rfl
  | cons token front ih =>
      obtain ⟨word, others⟩ := List.forall_mem_cons.mp words
      rw [List.cons_append, throughEnd, if_neg word, ih others, List.cons_append]

/-- Nothing behind an end token belongs to the tokens up to the end. -/
theorem throughEnd_append_cons {last : Token} (ends : last.kind = .endOfInput)
    (behind : List Token)
    : throughEnd (front ++ last :: behind) = front ++ [last] := by
  rw [throughEnd_append words, throughEnd, if_pos ends]

end Token

-----------------------------------------------------------------------------------------
-- What they settle
-----------------------------------------------------------------------------------------

namespace Program

/-- The parser stops on a token of a list that it refuses, one of those up to the end. -/
theorem exists_stopsOn {tokens : List Token} {error : SyntaxError}
    (refused : ofTokens tokens = .error error)
    : ∃ read token,
        Parser.program.StopsOn (Cursor.start tokens) error read token
        ∧ read ++ [token] <+: Token.throughEnd tokens := by
  obtain ⟨stopped, run⟩ := ofTokens_eq_error_iff.mp refused
  obtain ⟨read, token, stops, derivation, begins, -⟩ := Parser.stops_statements run
  refine ⟨read, token, stops, Token.prefix_throughEnd stops.sees fun token member => ?_⟩
  exact derivation.kind_ne_endOfInput (begins.subset member)

/-- Lists with the same tokens up to the end are parsed as the same program, or refused with the
same error: the first because both are derived by the same clauses, the second because the parser
stops on the same token of both.
-/
theorem ofTokens_congr {tokens tokens' : List Token}
    (same : Token.throughEnd tokens = Token.throughEnd tokens')
    : ofTokens tokens = ofTokens tokens' := by
  symm
  cases outcome : ofTokens tokens with
  | ok program =>
      rw [ofTokens_eq_ok_iff] at outcome ⊢
      rwa [← Token.beforeEnd_throughEnd, ← same, Token.beforeEnd_throughEnd]
  | error error =>
      obtain ⟨read, token, stops, within⟩ := exists_stopsOn outcome
      have sees : (Cursor.start tokens').Sees (read ++ [token]) :=
        (same ▸ within).trans (Token.throughEnd_prefix tokens')
      exact ofTokens_eq_error_iff.mpr (stops.fails (Cursor.start tokens') rfl sees)

/-- What stands behind the first end token makes no difference, whatever the text and the line of
that one, and a list that has none is parsed as if it had one, without a text and on no line: to
the same program, or to the same error with all that it tells.
-/
theorem ofTokens_ends_at_first_end {front : List Token} {last : Token}
    (words : ∀ token ∈ front, token.kind ≠ .endOfInput) (ends : last.kind = .endOfInput)
    (behind behind' : List Token)
    : ofTokens (front ++ [last] ++ behind) = ofTokens (front ++ [last] ++ behind')
      ∧ ofTokens front = ofTokens (front ++ [Token.endOfInput 0]) := by
  constructor
  · apply ofTokens_congr
    rw [List.append_assoc, List.append_assoc]
    exact (Token.throughEnd_append_cons words ends behind).trans
      (Token.throughEnd_append_cons words ends behind').symm
  · apply ofTokens_congr
    have supplied := Token.throughEnd_append words []
    rw [List.append_nil] at supplied
    exact supplied.trans (Token.throughEnd_append_cons words rfl []).symm

/-- A group is left open at an end token with a text of its own, behind which stands what would
close it: the error tells of that end token, and without one, of the end behind the list.
-/
theorem ofTokens_ends_at_first_end_open_group
    : let front : List Token := [⟨.openParen, "(", 1⟩, ⟨.nullKeyword, "null", 1⟩]
      let last : Token := ⟨.endOfInput, "end", 7⟩
      let closing : Token := ⟨.closeParen, ")", 8⟩
      (∀ token ∈ front, token.kind ≠ .endOfInput)
      ∧ last.kind = .endOfInput
      ∧ ofTokens (front ++ [last] ++ [closing]) = ofTokens (front ++ [last] ++ [])
      ∧ ofTokens front = ofTokens (front ++ [Token.endOfInput 0])
      ∧ ofTokens (front ++ [last] ++ [closing])
        = .error (.expectedToken .closeParen last Parser.groupContext)
      ∧ ofTokens front
        = .error (.expectedToken .closeParen (Token.endOfInput 0) Parser.groupContext) := by
  intro front last closing
  have words : ∀ token ∈ front, token.kind ≠ .endOfInput := by simp [front]
  have ends : last.kind = .endOfInput := rfl
  obtain ⟨behind, supplied⟩ := ofTokens_ends_at_first_end words ends [closing] []
  exact ⟨words, ends, behind, supplied, by decide +kernel, by decide +kernel⟩

end Program
end Reckoner
