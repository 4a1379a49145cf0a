import Reckoner.Proofs.Parsing.Sight

/-! Where parsers fail. A parser that fails stops on the first token that no phrase goes on
with: what it has read is the beginning of a phrase, and every cursor that comes upon the same
tokens makes it fail with the same error, which tells about the last of them.
-/

namespace Reckoner

/-- An error blames a token if it shows it: as what was found, by its text and line, or as an
opening parenthesis by its line.
-/
def SyntaxError.Blames (token : Token) : SyntaxError → Prop
  | unexpectedToken found | expectedToken _ found _ => found = token
  | invalidNumber text line => token.kind = .number ∧ text = token.text ∧ line = token.line
  | nestingTooDeep line => token.kind = .openParen ∧ line = token.line

theorem SyntaxError.Blames.line_eq {error : SyntaxError} {token : Token}
    (blames : error.Blames token)
    : error.line = token.line := by
  cases error with
  | unexpectedToken found => exact congrArg Token.line blames
  | expectedToken expected found context => exact congrArg Token.line blames
  | invalidNumber text line => exact blames.2.2
  | nestingTooDeep line => exact blames.2

-----------------------------------------------------------------------------------------
-- Stopping on a token
-----------------------------------------------------------------------------------------

namespace Parser

variable {α β : Type} {p q : Parser α} {f : α → Parser β} {c : Cursor} {error : SyntaxError}
  {read : List Token} {token : Token}

/-- A parser stops on a token behind others if it fails with an error that blames it, and does
so from every cursor that comes upon these tokens and this one with as many groups open.
-/
structure StopsOn (p : Parser α) (c : Cursor) (error : SyntaxError) (read : List Token)
    (token : Token)
    : Prop where
  sees : c.Sees (read ++ [token])
  blames : error.Blames token
  fails : ∀ d : Cursor, d.depth = c.depth → d.Sees (read ++ [token]) →
    ∃ stopped, p.run d = .error error stopped

namespace StopsOn

/-- A parser stops on the next token if that token alone makes it fail. -/
theorem of_peek (blames : error.Blames c.peek)
    (fails : ∀ d : Cursor, d.depth = c.depth → d.peek = c.peek →
      ∃ stopped, p.run d = .error error stopped)
    : p.StopsOn c error [] c.peek :=
  ⟨c.sees_peek, blames, fun d depth sees => fails d depth sees.peek_eq⟩

/-- Parsers that do the same in front of a token stop on the same token behind it. -/
theorem of_run_eq (stops : q.StopsOn c error read token)
    (same : ∀ d : Cursor, d.peek = c.peek → p.run d = q.run d)
    : p.StopsOn c error read token := by
  refine ⟨stops.sees, stops.blames, fun d depth sees => ?_⟩
  rw [same d (stops.sees.peek_eq_peek sees)]
  exact stops.fails d depth sees

/-- A parser that reads a token and goes on with another one stops where the other does. -/
theorem cons (stops : q.StopsOn c.next error read token) (word : c.peek.kind ≠ .endOfInput)
    (same : ∀ d : Cursor, d.peek = c.peek → p.run d = q.run d.next)
    : p.StopsOn c error (c.peek :: read) token := by
  refine ⟨(Cursor.reads_next word).sees stops.sees, stops.blames, fun d depth sees => ?_⟩
  have first : d.peek = c.peek := Cursor.Sees.peek_eq sees
  rw [same d first]
  rw [← first] at word
  refine stops.fails d.next ?_ ?_
  · rw [d.depth_next, c.depth_next, depth]
  · rw [List.cons_append, ← first] at sees
    exact Cursor.Sees.next sees word (by simp)

/-- A failure of the first part is one of the whole. -/
theorem bind (stops : p.StopsOn c error read token)
    : (p >>= f).StopsOn c error read token := by
  refine ⟨stops.sees, stops.blames, fun d depth sees => ?_⟩
  obtain ⟨stopped, run⟩ := stops.fails d depth sees
  exact ⟨stopped, by rw [EStateM.run_bind, run]⟩

end StopsOn

/-- A failure of the second part is one of the whole, behind what the first part passes. -/
theorem Passes.bind {front : List Token} {a : α} {middle : Cursor}
    (first : p.Passes c front a middle) (stops : (f a).StopsOn middle error read token)
    : (p >>= f).StopsOn c error (front ++ read) token := by
  refine ⟨?_, stops.blames, fun d depth sees => ?_⟩
  · rw [List.append_assoc]
    exact first.reads.sees stops.sees
  · rw [List.append_assoc] at sees
    obtain ⟨d', reads, behind⟩ := sees.split (by simp)
    have lookahead : d.Sees (front ++ [middle.peek]) := by
      rw [← stops.sees.peek_eq_peek behind]
      exact reads.sees d'.sees_peek
    obtain ⟨d'', reads', run⟩ := first.passes d depth lookahead
    obtain rfl := reads.unique reads'
    have deep : d'.depth = middle.depth := by
      rw [reads.depth, depth, first.reads.depth]
    obtain ⟨stopped, failed⟩ := stops.fails d' deep behind
    exact ⟨stopped, by rw [EStateM.run_bind, run]; exact failed⟩

theorem Passes.of_run_eq {a : α} {c' : Cursor} (passes : q.Passes c read a c')
    (same : ∀ d : Cursor, q.run d = p.run d)
    : p.Passes c read a c' :=
  ⟨passes.reads, fun d => same d ▸ passes.passes d⟩

theorem passes_advance (word : c.peek.kind ≠ .endOfInput)
    : advance.Passes c [c.peek] c.peek c.next := by
  refine ⟨Cursor.reads_next word, fun d _ sees => ?_⟩
  have first : d.peek = c.peek := Cursor.Sees.peek_eq sees
  rw [← first] at word ⊢
  exact ⟨d.next, Cursor.reads_next word, rfl⟩

theorem passes_expect {kind : TokenKind} (context : String) (found : c.peek.kind = kind)
    (word : kind ≠ .endOfInput)
    : (expect kind context).Passes c [c.peek] c.peek c.next := by
  obtain ⟨reads, passes⟩ := passes_advance (found ▸ word)
  refine ⟨reads, fun d depth sees => ?_⟩
  have first : d.peek = c.peek := Cursor.Sees.peek_eq sees
  obtain ⟨d', reads', run⟩ := passes d depth sees
  rw [run_expect, if_pos (first ▸ found)]
  exact ⟨d', reads', run⟩

theorem stopsOn_expect {kind : TokenKind} (context : String) (other : c.peek.kind ≠ kind)
    : (expect kind context).StopsOn c (.expectedToken kind c.peek context) [] c.peek := by
  refine .of_peek rfl fun d _ first => ⟨d, ?_⟩
  rw [run_expect, if_neg (first ▸ other), first]

end Parser
-----------------------------------------------------------------------------------------
-- Beginnings of phrases
-----------------------------------------------------------------------------------------

/-- Some phrase of the level begins with the tokens and opens no more groups inside each other
than there is room for.
-/
def Level.Begins (level : Level) (room : Nat) (read : List Token) : Prop :=
  ∃ phrase : Phrase level, read <+: phrase.tokens ∧ phrase.nesting ≤ room

namespace Level.Begins

variable {tier : Tier} {room : Nat} {read : List Token}

/-- Every phrase begins with nothing: null is one of any level. -/
theorem nil (level : Level) (room : Nat)
    : level.Begins room [] := by
  let null : Phrase .operand := .null { kind := .nullKeyword, text := "null", line := 0 } rfl
  cases level with
  | operand => exact ⟨null, List.nil_prefix, Nat.zero_le _⟩
  | chain tier =>
      cases tier with
      | multiplicative => exact ⟨.first null, List.nil_prefix, Nat.zero_le _⟩
      | additive =>
          let factor : Phrase (.chain .multiplicative) := .first null
          exact ⟨.first factor, List.nil_prefix, Nat.zero_le _⟩

theorem of_phrase {level : Level} (phrase : Phrase level) (fits : phrase.nesting ≤ room)
    : level.Begins room phrase.tokens :=
  ⟨phrase, List.prefix_rfl, fits⟩

/-- A group begins with its parenthesis and the beginning of what stands inside. -/
theorem group {opening : Token} (opens : opening.kind = .openParen)
    (inside : (chain .additive).Begins room read)
    : operand.Begins (room + 1) (opening :: read) := by
  obtain ⟨phrase, begins, fits⟩ := inside
  let closing : Token := { kind := .closeParen, text := ")", line := 0 }
  refine ⟨.group opening phrase closing opens rfl, ?_, Nat.succ_le_succ fits⟩
  exact (List.prefix_cons_inj opening).mpr (begins.trans (List.prefix_append _ _))

theorem first (begins : tier.operands.Begins room read)
    : (chain tier).Begins room read := by
  obtain ⟨phrase, begins, fits⟩ := begins
  exact ⟨.first phrase, begins, fits⟩

/-- A chain begins with a chain, a sign and the beginning of one more operand. -/
theorem joined (left : Phrase (chain tier)) {sign : Token} {op : Operator}
    (spells : sign.operator? = some op) (accepted : tier.accepts op)
    (fits : left.nesting ≤ room) (begins : tier.operands.Begins room read)
    : (chain tier).Begins room (left.tokens ++ sign :: read) := by
  obtain ⟨phrase, begins, fits'⟩ := begins
  refine ⟨.joined left sign op phrase spells accepted, ?_, Nat.max_le.mpr ⟨fits, fits'⟩⟩
  exact (List.prefix_append_right_inj _).mpr ((List.prefix_cons_inj sign).mpr begins)

end Level.Begins

-----------------------------------------------------------------------------------------
-- Expressions
-----------------------------------------------------------------------------------------

/-- Wherever the parser of a level fails with a number of groups open, it stops on a token
behind the beginning of a phrase that fits into the groups that may still be opened.
-/
def Level.Stops (level : Level) (depth : Nat) : Prop :=
  ∀ ⦃c stopped : Cursor⦄ ⦃error : SyntaxError⦄,
    c.depth = depth →
    level.parser.run c = .error error stopped →
      ∃ read token,
        level.parser.StopsOn c error read token
        ∧ level.Begins (maxOpenGroups - depth) read

namespace Parser

variable {c : Cursor} {error : SyntaxError} {read : List Token} {token : Token} {line : Nat}

/-- What stands behind the parenthesis of a group, once the group is open. -/
def groupRest : Parser Expr := do
  let e ← expression
  let _ ← expect .closeParen groupContext
  leaveGroup
  return e

theorem StopsOn.enterGroup (room : c.depth < maxOpenGroups)
    (stops : groupRest.StopsOn { c with depth := c.depth + 1 } error read token)
    : (groupWith expression line).StopsOn c error read token := by
  refine ⟨stops.sees, stops.blames, fun d depth sees => ?_⟩
  obtain ⟨stopped, run⟩ := stops.fails { d with depth := d.depth + 1 }
    (congrArg (· + 1) depth) sees
  rw [groupWith, EStateM.run_bind, run_enterGroup, if_neg (by omega)]
  exact ⟨stopped, run⟩

/-- Inside a group, either the expression fails or the token behind it is no parenthesis. -/
theorem stops_groupRest {depth : Nat} {stopped : Cursor}
    (inner : (Level.chain .additive).Stops depth) (here : c.depth = depth)
    (run : groupRest.run c = .error error stopped)
    : ∃ read token,
        groupRest.StopsOn c error read token
        ∧ (Level.chain .additive).Begins (maxOpenGroups - depth) read := by
  have level (d : Cursor) : expression.run d = (Level.chain .additive).parser.run d :=
    run_expression_eq_additive d
  rcases run_bind_eq_error_iff.mp run with failed | ⟨e, middle, found, behind⟩
  · rw [level] at failed
    obtain ⟨read, token, stops, begins⟩ := inner here failed
    exact ⟨read, token, (stops.of_run_eq fun d _ => level d).bind, begins⟩
  · rw [level] at found
    obtain ⟨phrase, rfl, stands⟩ := Level.run_parser_eq_ok_iff.mp found
    rcases run_bind_eq_error_iff.mp behind with failed | ⟨_, _, _, closed⟩
    · obtain ⟨other, rfl, rfl⟩ := run_expect_eq_error_iff.mp failed
      have passes := stands.passes.of_run_eq fun d => (level d).symm
      refine ⟨_, _, passes.bind (stopsOn_expect groupContext other).bind, ?_⟩
      rw [List.append_nil]
      exact .of_phrase phrase (here ▸ stands.room)
    · cases closed

end Parser

namespace Level.Stops

variable {depth : Nat}

/-- An operand fails on its first token alone, or behind the parenthesis that it is. -/
theorem operand
    (inner : depth < maxOpenGroups → (Level.chain .additive).Stops (depth + 1))
    : Level.operand.Stops depth := by
  intro c stopped error here run
  have begins := Level.Begins.nil .operand (maxOpenGroups - depth)
  rw [parser, parserWith, Parser.run_primaryWith] at run
  split at run
  · next kind =>
      split at run
      · cases run
      · next refused =>
          cases run
          refine ⟨[], c.peek, .of_peek ⟨kind, rfl, rfl⟩ fun d _ first => ⟨d.next, ?_⟩, begins⟩
          rw [parser, parserWith, Parser.run_primaryWith, first, kind]
          simp only [refused]
  · cases run
  · cases run
  · next opens =>
      have word : c.peek.kind ≠ .endOfInput := by simp [opens]
      have enters (d : Cursor) (first : d.peek = c.peek)
          : Level.operand.parser.run d
            = (Parser.groupWith Parser.expression c.peek.line).run d.next := by
        rw [parser, parserWith, Parser.run_primaryWith, first, opens]
      -- The parenthesis is read before the limit is looked at, and is what a full cursor stops on.
      by_cases full : maxOpenGroups ≤ c.next.depth
      · rw [Parser.groupWith, EStateM.run_bind, Parser.run_enterGroup, if_pos full] at run
        cases run
        refine ⟨[], c.peek, .of_peek ⟨opens, rfl⟩ fun d deep first => ⟨d.next, ?_⟩, begins⟩
        rw [c.depth_next] at full
        rw [enters d first, Parser.groupWith, EStateM.run_bind, Parser.run_enterGroup,
          if_pos (by rwa [d.depth_next, deep])]
      · rw [Parser.groupWith, EStateM.run_bind, Parser.run_enterGroup, if_neg full] at run
        rw [c.depth_next, here, Nat.not_le] at full
        obtain ⟨read, token, stops, inside⟩ := Parser.stops_groupRest (inner full)
          (by rw [c.depth_next, here]) run
        have room : maxOpenGroups - (depth + 1) + 1 = maxOpenGroups - depth := by omega
        exact ⟨c.peek :: read, token,
          (stops.enterGroup (by rwa [c.depth_next, here])).cons word enters,
          room ▸ inside.group opens⟩
  · next number null name opening =>
      cases run
      refine ⟨[], c.peek, .of_peek rfl fun d _ first => ⟨d, ?_⟩, begins⟩
      rw [parser, parserWith, Parser.run_primaryWith, first]
      split
      · next kind => exact absurd kind number
      · next kind => exact absurd kind null
      · next kind => exact absurd kind name
      · next kind => exact absurd kind opening
      · rfl

/-- A chain that goes on behind a phrase fails in one of its further operands.
Witness: induction on the tokens left, of which each sign takes one.
-/
theorem proceed {tier : Tier} (operands : tier.operands.Stops depth)
    (left : Phrase (Level.chain tier)) (fits : left.nesting ≤ maxOpenGroups - depth)
    {c stopped : Cursor} {error : SyntaxError} (here : c.depth = depth)
    (run : ((Level.chain tier).proceed left.expr).run c = .error error stopped)
    : ∃ read token,
        ((Level.chain tier).proceed left.expr).StopsOn c error read token
        ∧ (Level.chain tier).Begins (maxOpenGroups - depth) (left.tokens ++ read) := by
  induction size : c.rest.length using Nat.strongRecOn generalizing c left with
  | _ size ih =>
      obtain ⟨op, spells, accepted, run⟩ := run_proceed_chain_eq_error_iff.mp run
      have word := Token.kind_ne_endOfInput_of_operator? spells
      have goesOn (d : Cursor) (first : d.peek = c.peek)
          : ((Level.chain tier).proceed left.expr).run d
            = (do
                let right ← tier.operands.parser
                (Level.chain tier).proceed
                  (.binary left.expr op right c.peek.line)).run d.next := by
        rw [run_proceed_chain_eq, first, spells]
        simp only [if_pos accepted]
      rcases run with failed | ⟨right, middle, found, behind⟩
      · obtain ⟨read, token, stops, begins⟩ := operands (by rw [c.depth_next, here]) failed
        exact ⟨c.peek :: read, token, stops.bind.cons word goesOn,
          .joined left spells accepted fits begins⟩
      · obtain ⟨phrase, rfl, stands⟩ := run_parser_eq_ok_iff.mp found
        have shorter := stands.reads.length_lt_of_next word
        have room : phrase.nesting ≤ maxOpenGroups - depth := by
          have fits := stands.room
          rwa [c.depth_next, here] at fits
        -- The longer chain is a phrase like the one before, with fewer tokens left.
        obtain ⟨read, token, stops, begins⟩ := ih middle.rest.length (by omega)
          (.joined left c.peek op phrase spells accepted) (Nat.max_le.mpr ⟨fits, room⟩)
          (by rw [stands.reads.depth, c.depth_next, here]) behind rfl
        refine ⟨c.peek :: (phrase.tokens ++ read), token,
          (stands.passes.bind stops).cons word goesOn, ?_⟩
        simpa only [Phrase.tokens, List.append_assoc, List.cons_append] using begins

theorem chain {tier : Tier} (operands : tier.operands.Stops depth)
    : (Level.chain tier).Stops depth := by
  intro c stopped error here run
  rw [parser_chain] at run ⊢
  rcases Parser.run_bind_eq_error_iff.mp run with failed | ⟨e, middle, found, behind⟩
  · obtain ⟨read, token, stops, begins⟩ := operands here failed
    exact ⟨read, token, stops.bind, .first begins⟩
  · obtain ⟨phrase, rfl, stands⟩ := run_parser_eq_ok_iff.mp found
    have room : phrase.nesting ≤ maxOpenGroups - depth := here ▸ stands.room
    obtain ⟨read, token, stops, begins⟩ := operands.proceed (.first phrase) room
      (by rw [stands.reads.depth, here]) behind
    exact ⟨phrase.tokens ++ read, token, stands.passes.bind stops, begins⟩

end Level.Stops

/-- Wherever the parser of a level fails, it stops on a token behind the beginning of a phrase. -/
theorem Level.stops (level : Level) (depth : Nat)
    : level.Stops depth := by
  induction level, depth using Level.induction_on_groups with
  | operand depth inner => exact .operand inner
  | chain tier depth operands => exact .chain operands

end Reckoner
