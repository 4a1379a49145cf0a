import Reckoner.Proofs.Grammar.Phrase
import Reckoner.Proofs.Parsing.Steps

/-! Parsers read phrases: a parser of expressions succeeds between two cursors exactly if a
phrase of its level stands between them, fits into the groups that may still be opened, and
is not extended by the token behind it.
-/

namespace Reckoner

/-- A phrase stands between two cursors so that a parser reads it, neither less nor more. -/
structure Phrase.StandsBetween {level : Level} (phrase : Phrase level) (c c' : Cursor)
    : Prop where
  reads : c.Reads phrase.tokens c'
  room : phrase.nesting ≤ maxOpenGroups - c.depth
  ends : ¬ level.Extends c'.peek

theorem Level.not_extends_peek (level : Level) {c : Cursor} (nothing : c.rest.length = 0)
    : ¬ level.Extends c.peek := by
  apply level.not_extends_of_kind
  simp [Cursor.peek, List.length_eq_zero_iff.mp nothing, Token.endOfInput]

/-- A parser that succeeds only where a phrase of a level stands, with its expression. -/
def Parser.Sound (p : Parser Expr) (level : Level) : Prop :=
  ∀ ⦃c c' : Cursor⦄ ⦃e : Expr⦄,
    p.run c = .ok e c' → ∃ phrase : Phrase level, phrase.expr = e ∧ phrase.StandsBetween c c'

-----------------------------------------------------------------------------------------
-- What is read is a phrase
-----------------------------------------------------------------------------------------

namespace Parser

theorem Sound.primaryWith {inner : Parser Expr} (sound : inner.Sound (.chain .additive))
    : (primaryWith inner).Sound .operand := by
  intro c c' e run
  rw [run_primaryWith] at run
  have ends := Level.not_extends_operand c'.peek
  split at run
  · next kind =>
      split at run
      · next value reads =>
          cases run
          exact ⟨.number c.peek value kind reads, rfl, Cursor.reads_next (by simp [kind]),
            Nat.zero_le _, ends⟩
      · cases run
  · next kind =>
      cases run
      exact ⟨.null c.peek kind, rfl, Cursor.reads_next (by simp [kind]), Nat.zero_le _, ends⟩
  · next kind =>
      cases run
      exact ⟨.name c.peek kind, rfl, Cursor.reads_next (by simp [kind]), Nat.zero_le _, ends⟩
  · next opens =>
      obtain ⟨room, middle, inside, closes, rfl⟩ := run_groupWith_eq_ok_iff.mp run
      obtain ⟨phrase, rfl, stands⟩ := sound inside
      have opening : c.Reads [c.peek] c.next := Cursor.reads_next (by simp [opens])
      have closing : middle.Reads [middle.peek] middle.next :=
        Cursor.reads_next (by simp [closes])
      -- The group leaves as many groups open as it found.
      have within := (stands.reads.trans closing).withDepth c.next.depth
      refine ⟨.group c.peek phrase middle.peek opens closes, rfl, opening.trans ?_, ?_, ends⟩
      · have depth : middle.next.depth - 1 = c.next.depth := by
          rw [closing.depth, stands.reads.depth]
          rfl
        rw [depth]
        exact within
      · have inside := stands.room
        have outside := opening.depth
        simp only [Phrase.nesting] at inside ⊢
        omega
  · cases run

/-- A chain that goes on behind a phrase reads a phrase that begins with it.
Witness: induction on the bound, which the tokens left never exceed.
-/
theorem Sound.chainFrom {tier : Tier} {operand : Parser Expr}
    (sound : operand.Sound tier.operands) (bound : List Token) {start c c' : Cursor} {e : Expr}
    (left : Phrase (.chain tier)) (reads : start.Reads left.tokens c)
    (room : left.nesting ≤ maxOpenGroups - start.depth)
    (ends : ¬ tier.operands.Extends c.peek) (enough : c.rest.length ≤ bound.length)
    (run : (chainFrom tier.accepts operand bound left.expr).run c = .ok e c')
    : ∃ phrase : Phrase (.chain tier), phrase.expr = e ∧ phrase.StandsBetween start c' := by
  induction bound generalizing c left with
  | nil =>
      have nothing := (Level.chain tier).not_extends_peek (Nat.le_zero.mp enough)
      cases run
      exact ⟨left, rfl, reads, room, nothing⟩
  | cons token bound ih =>
      rw [run_chainFrom_cons] at run
      split at run
      · next op spells =>
          split at run
          · next accepted =>
              split at run
              · next right middle found =>
                  have word := Token.kind_ne_endOfInput_of_operator? spells
                  have sign := Cursor.reads_next word
                  obtain ⟨phrase, rfl, stands⟩ := sound found
                  apply ih (.joined left c.peek op phrase spells accepted) _ _ stands.ends _ run
                  · exact reads.trans (sign.trans stands.reads)
                  · have fits := stands.room
                    rw [sign.depth, reads.depth] at fits
                    exact Nat.max_le.mpr ⟨room, fits⟩
                  · have shorter := stands.reads.length_lt_of_next word
                    rw [List.length_cons] at enough
                    omega
              · cases run
          · next refused =>
              cases run
              refine ⟨left, rfl, reads, room, ?_⟩
              rw [Level.extends_chain_iff]
              intro extended
              rcases extended with ⟨other, spells', accepted⟩ | inner
              · obtain rfl := Option.some.inj (spells.symm.trans spells')
                exact refused accepted
              · exact ends inner
      · next silent =>
          cases run
          exact ⟨left, rfl, reads, room, Level.not_extends_of_operator?_eq_none _ silent⟩

theorem run_chain_eq_ok_iff {accepts : Operator → Bool} {operand : Parser Expr}
    {c c' : Cursor} {e : Expr}
    : (chain accepts operand).run c = .ok e c'
      ↔ ∃ left middle,
          operand.run c = .ok left middle
          ∧ (Parser.chainFrom accepts operand middle.rest left).run middle = .ok e c' := by
  simp only [chain, run_bind_eq_ok_iff, EStateM.run_get, EStateM.Result.ok.injEq]
  constructor
  · intro ran
    obtain ⟨left, middle, first, _, _, ⟨rfl, rfl⟩, run⟩ := ran
    exact ⟨left, middle, first, run⟩
  · intro ran
    obtain ⟨left, middle, first, run⟩ := ran
    exact ⟨left, middle, first, middle, middle, ⟨rfl, rfl⟩, run⟩

theorem Sound.chain {tier : Tier} {operand : Parser Expr}
    (sound : operand.Sound tier.operands)
    : (chain tier.accepts operand).Sound (.chain tier) := by
  intro c c' e run
  obtain ⟨left, middle, first, rest⟩ := run_chain_eq_ok_iff.mp run
  obtain ⟨phrase, rfl, stands⟩ := sound first
  exact sound.chainFrom middle.rest (.first phrase) stands.reads stands.room stands.ends
    (Nat.le_refl _) rest

end Parser

/-- The parser of a level, given a parser for what stands inside a group. -/
def Level.parserWith (inner : Parser Expr) : Level → Parser Expr
  | operand => .primaryWith inner
  | chain .multiplicative => .chain Operator.isMultiplicative (.primaryWith inner)
  | chain .additive =>
      .chain Operator.isAdditive (.chain Operator.isMultiplicative (.primaryWith inner))

theorem Level.parserWith_chain (inner : Parser Expr) (tier : Tier)
    : (chain tier).parserWith inner
      = .chain tier.accepts (tier.operands.parserWith inner) := by
  cases tier <;> rfl

/-- The parser of a level: of operands, of chains of the tighter, or of the looser tier. -/
def Level.parser (level : Level) : Parser Expr :=
  level.parserWith .expression

namespace Parser

theorem Sound.parserWith {inner : Parser Expr} (sound : inner.Sound (.chain .additive))
    (level : Level)
    : (level.parserWith inner).Sound level := by
  have chained (tier : Tier) (operands : (tier.operands.parserWith inner).Sound tier.operands)
      : ((Level.chain tier).parserWith inner).Sound (.chain tier) := by
    rw [Level.parserWith_chain]
    exact operands.chain
  cases level with
  | operand => exact sound.primaryWith
  | chain tier =>
      cases tier with
      | multiplicative => exact chained .multiplicative sound.primaryWith
      | additive => exact chained .additive (chained .multiplicative sound.primaryWith)

/-- Whatever the bound on groups, what is read is a phrase, by induction on the bound. -/
theorem sound_expressionWithin (groups : Nat)
    : (expressionWithin groups).Sound (.chain .additive) := by
  induction groups with
  | zero =>
      intro c c' e run
      cases run
  | succ groups ih => exact ih.parserWith (.chain .additive)

theorem run_expression (c : Cursor)
    : expression.run c = (expressionWithin (maxOpenGroups - c.depth + 1)).run c := by
  rw [expression, EStateM.run_bind, EStateM.run_get]

theorem sound_expression
    : expression.Sound (.chain .additive) := by
  intro c c' e run
  rw [run_expression] at run
  exact sound_expressionWithin _ run

theorem parser_sound (level : Level)
    : level.parser.Sound level :=
  sound_expression.parserWith level

end Parser
end Reckoner
