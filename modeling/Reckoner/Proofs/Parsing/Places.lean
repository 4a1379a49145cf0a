import Reckoner.Proofs.Parsing.Viability

/-! Where the parser gets on a token list. It comes to places, each a parser that is entered or
goes on there, with the cursor at that moment. What the next tokens at these places are decides
everything: a list is refused exactly if the parser comes to a place that refuses what it finds.
-/

namespace Reckoner
namespace Parser

/-- Where the parser of programs can be: between two statements, at the beginning of a statement
or of a phrase of a level, behind an operand of a chain, or behind what stands in a group.
-/
inductive Place
  | boundary
  | statement
  | phrase (level : Level)
  | chain (tier : Tier)
  | closing

/-- The parser of programs comes to a place on a token list, with the given cursor. It begins
between statements and is there again behind each one. A statement is a declaration, told by its
keyword, or an expression. A chain begins with an operand and goes on behind each accepted sign
with one more, and an operand that is a group has an expression inside and is closed behind that.
-/
inductive ComesTo (tokens : List Token) : Place → Cursor → Prop
  | start
    : ComesTo tokens .boundary (.start tokens)
  | boundary {c c' : Cursor} {s : Statement} (reached : ComesTo tokens .boundary c)
    (inside : ¬ c.atEnd) (run : Parser.statement.run c = .ok s c')
    : ComesTo tokens .boundary c'
  | statement {c : Cursor} (reached : ComesTo tokens .boundary c) (inside : ¬ c.atEnd)
    : ComesTo tokens .statement c
  | expression {c : Cursor} (reached : ComesTo tokens .statement c)
    (other : c.peek.kind ≠ .letKeyword)
    : ComesTo tokens (.phrase (.chain .additive)) c
  | initializer {c : Cursor} (reached : ComesTo tokens .statement c)
    (opens : c.peek.kind = .letKeyword) (names : c.next.peek.kind = .identifier)
    (defines : c.next.next.peek.kind = .equals)
    : ComesTo tokens (.phrase (.chain .additive)) c.next.next.next
  | first {tier : Tier} {c : Cursor} (reached : ComesTo tokens (.phrase (.chain tier)) c)
    : ComesTo tokens (.phrase tier.operands) c
  | chain {tier : Tier} {c c' : Cursor} {e : Expr}
    (reached : ComesTo tokens (.phrase (.chain tier)) c)
    (run : tier.operands.parser.run c = .ok e c')
    : ComesTo tokens (.chain tier) c'
  | next {tier : Tier} {c : Cursor} {op : Operator} (reached : ComesTo tokens (.chain tier) c)
    (spells : c.peek.operator? = some op) (accepted : tier.accepts op)
    : ComesTo tokens (.phrase tier.operands) c.next
  | joined {tier : Tier} {c c' : Cursor} {op : Operator} {e : Expr}
    (reached : ComesTo tokens (.chain tier) c) (spells : c.peek.operator? = some op)
    (accepted : tier.accepts op) (run : tier.operands.parser.run c.next = .ok e c')
    : ComesTo tokens (.chain tier) c'
  | group {c inside : Cursor} {u : Unit} (reached : ComesTo tokens (.phrase .operand) c)
    (opens : c.peek.kind = .openParen)
    (entered : (enterGroup c.peek.line).run c.next = .ok u inside)
    : ComesTo tokens (.phrase (.chain .additive)) inside
  | closing {c inside c' : Cursor} {u : Unit} {e : Expr}
    (reached : ComesTo tokens (.phrase .operand) c) (opens : c.peek.kind = .openParen)
    (entered : (enterGroup c.peek.line).run c.next = .ok u inside)
    (run : (Level.chain .additive).parser.run inside = .ok e c')
    : ComesTo tokens .closing c'

/-- A place refuses what it finds by itself, without entering another parser: an operand refuses
its first token, or the group that it would open, a declaration refuses what stands for its name
or its equals sign, and a group what stands for its closing parenthesis.
-/
def Place.Refuses (error : SyntaxError) (c : Cursor) : Place → Prop
  | boundary | chain _ | phrase (.chain _) => False
  | statement =>
      c.peek.kind = .letKeyword
      ∧ (c.next.peek.kind ≠ .identifier
          ∧ error = .expectedToken .identifier c.next.peek declarationContext
        ∨ c.next.peek.kind = .identifier
          ∧ c.next.next.peek.kind ≠ .equals
          ∧ error = .expectedToken .equals c.next.next.peek declarationContext)
  | phrase .operand =>
      match c.peek.kind with
      | .number =>
          Binary64.ofText? c.peek.text = none ∧ error = .invalidNumber c.peek.text c.peek.line
      | .nullKeyword | .identifier => False
      | .openParen => maxOpenGroups ≤ c.depth ∧ error = .nestingTooDeep c.peek.line
      | .letKeyword | .operator | .equals | .closeParen | .endOfInput =>
          error = .unexpectedToken c.peek
  | closing => c.peek.kind ≠ .closeParen ∧ error = .expectedToken .closeParen c.peek groupContext

/-- The parser comes to a place that refuses what it finds. -/
def IsRefused (tokens : List Token) (error : SyntaxError) : Prop :=
  ∃ place c, ComesTo tokens place c ∧ place.Refuses error c

variable {tokens : List Token} {place : Place} {c stopped : Cursor} {error : SyntaxError}

-----------------------------------------------------------------------------------------
-- From a place to the whole
-----------------------------------------------------------------------------------------

/-- What goes on at a place fails with an error, whatever has been parsed in front of it. -/
def Place.Fails (error : SyntaxError) (c : Cursor) : Place → Prop
  | boundary => ∀ parsed, ∃ stopped, (statements parsed).run c = .error error stopped
  | statement => ∃ stopped, Parser.statement.run c = .error error stopped
  | phrase level => ∃ stopped, level.parser.run c = .error error stopped
  | chain tier => ∀ left, ∃ stopped, ((Level.chain tier).proceed left).run c = .error error stopped
  | closing => ∃ stopped, (expect .closeParen groupContext).run c = .error error stopped

theorem Place.Refuses.fails (refuses : place.Refuses error c)
    : place.Fails error c := by
  cases place with
  | boundary | chain tier => exact refuses.elim
  | statement =>
      obtain ⟨opens, ⟨unnamed, rfl⟩ | ⟨names, undefined, rfl⟩⟩ := refuses
      · refine ⟨c.next, ?_⟩
        rw [run_statement, if_pos opens]
        simp only [declaration, EStateM.run_bind, run_advance, run_expect, if_neg unnamed]
      · refine ⟨c.next.next, ?_⟩
        rw [run_statement, if_pos opens]
        simp only [declaration, EStateM.run_bind, run_advance, run_expect, if_pos names,
          if_neg undefined]
  | phrase level =>
      cases level with
      | chain tier => exact refuses.elim
      | operand =>
          rw [Fails, Level.parser, Level.parserWith, run_primaryWith]
          simp only [Refuses] at refuses
          split at refuses
          · next kind =>
              obtain ⟨unreadable, rfl⟩ := refuses
              simp only [kind, unreadable]
              exact ⟨_, rfl⟩
          · exact refuses.elim
          · exact refuses.elim
          · next kind =>
              obtain ⟨full, rfl⟩ := refuses
              rw [← c.depth_next] at full
              simp only [kind, groupWith, EStateM.run_bind, run_enterGroup, if_pos full]
              exact ⟨_, rfl⟩
          all_goals
            next kind =>
              subst refuses
              simp only [kind]
              exact ⟨_, rfl⟩
  | closing =>
      obtain ⟨other, rfl⟩ := refuses
      exact ⟨c, run_expect_eq_error_iff.mpr ⟨other, rfl, rfl⟩⟩

/-- An error at a place that the parser comes to is its error on the whole list, by induction on
the way there: what led to a place hands on the error from it.
-/
theorem ComesTo.ofTokens_eq_error (reached : ComesTo tokens place c)
    (fails : place.Fails error c)
    : Program.ofTokens tokens = .error error := by
  induction reached with
  | start => exact Program.ofTokens_eq_error_iff.mpr (fails [])
  | @boundary c _ s _ inside run ih =>
      refine ih fun parsed => ?_
      obtain ⟨stopped, failed⟩ := fails (s :: parsed)
      rw [run_statements, if_neg inside]
      exact ⟨stopped, run_bind_eq_error_iff.mpr (.inr ⟨s, _, run, failed⟩)⟩
  | statement _ inside ih =>
      refine ih fun parsed => ?_
      obtain ⟨stopped, failed⟩ := fails
      rw [run_statements, if_neg inside]
      exact ⟨stopped, run_bind_eq_error_iff.mpr (.inl failed)⟩
  | expression _ other ih =>
      obtain ⟨stopped, failed⟩ := fails
      refine ih ⟨stopped, ?_⟩
      rw [run_statement, if_neg other]
      exact run_bind_eq_error_iff.mpr (.inl ((run_expression_eq_additive _).trans failed))
  | @initializer c _ opens names defines ih =>
      obtain ⟨stopped, failed⟩ := fails
      have inner : Parser.expression.run c.next.next.next = .error error stopped :=
        (run_expression_eq_additive _).trans failed
      refine ih ⟨stopped, ?_⟩
      rw [run_statement, if_pos opens]
      simp only [declaration, EStateM.run_bind, run_advance, run_expect, names, defines, inner,
        if_true]
  | first _ ih =>
      obtain ⟨stopped, failed⟩ := fails
      refine ih ⟨stopped, ?_⟩
      rw [Level.parser_chain]
      exact run_bind_eq_error_iff.mpr (.inl failed)
  | @chain tier _ _ e _ run ih =>
      obtain ⟨stopped, failed⟩ := fails e
      refine ih ⟨stopped, ?_⟩
      rw [Level.parser_chain]
      exact run_bind_eq_error_iff.mpr (.inr ⟨e, _, run, failed⟩)
  | next _ spells accepted ih =>
      obtain ⟨stopped, failed⟩ := fails
      exact ih fun left => ⟨stopped, Level.run_proceed_chain_eq_error_iff.mpr
        ⟨_, spells, accepted, .inl failed⟩⟩
  | @joined _ _ _ _ e _ spells accepted run ih =>
      refine ih fun left => ?_
      obtain ⟨stopped, failed⟩ := fails _
      exact ⟨stopped, Level.run_proceed_chain_eq_error_iff.mpr
        ⟨_, spells, accepted, .inr ⟨e, _, run, failed⟩⟩⟩
  | @group c inside u _ opens entered ih =>
      obtain ⟨stopped, failed⟩ := fails
      have inner : Parser.expression.run inside = .error error stopped :=
        (run_expression_eq_additive _).trans failed
      refine ih ⟨stopped, ?_⟩
      rw [Level.parser, Level.parserWith, run_primaryWith, opens]
      exact run_groupWith_eq_error_iff.mpr (.inr ⟨u, inside, entered, .inl inner⟩)
  | @closing c inside c' u e _ opens entered run ih =>
      obtain ⟨stopped, failed⟩ := fails
      have inner : Parser.expression.run inside = .ok e c' :=
        (run_expression_eq_additive _).trans run
      refine ih ⟨stopped, ?_⟩
      rw [Level.parser, Level.parserWith, run_primaryWith, opens]
      exact run_groupWith_eq_error_iff.mpr
        (.inr ⟨u, inside, entered, .inr ⟨e, c', inner, failed⟩⟩)

-----------------------------------------------------------------------------------------
-- From the whole to a place
-----------------------------------------------------------------------------------------

/-- Wherever the parser of a level is entered with a number of groups open and fails, it has come
to a place that refuses what it finds.
-/
def RefusesIn (tokens : List Token) (level : Level) (depth : Nat) : Prop :=
  ∀ ⦃c stopped : Cursor⦄ ⦃error : SyntaxError⦄,
    ComesTo tokens (.phrase level) c →
    c.depth = depth →
    level.parser.run c = .error error stopped →
      IsRefused tokens error

namespace RefusesIn

variable {depth : Nat}

/-- An operand refuses its first token or the group that it opens, or what stands in the group is
refused, or what stands behind that.
-/
theorem operand (inner : depth < maxOpenGroups → RefusesIn tokens (.chain .additive) (depth + 1))
    : RefusesIn tokens .operand depth := by
  intro c stopped error reached here run
  have refused (refuses : (Place.phrase .operand).Refuses error c) : IsRefused tokens error :=
    ⟨_, c, reached, refuses⟩
  rw [Level.parser, Level.parserWith, run_primaryWith] at run
  simp only [Place.Refuses] at refused
  cases kind : c.peek.kind with
  | number =>
      simp only [kind] at run refused
      cases read : Binary64.ofText? c.peek.text with
      | some value => simp [read] at run
      | none =>
          simp only [read] at run
          cases run
          exact refused ⟨read, rfl⟩
  | nullKeyword | identifier => simp [kind] at run
  | openParen =>
      simp only [kind] at run refused
      obtain failed | ⟨u, inside, entered, failed | ⟨e, middle, found, failed⟩⟩ :=
        run_groupWith_eq_error_iff.mp run
      · rw [run_enterGroup, c.depth_next] at failed
        split at failed
        · next full =>
            cases failed
            exact refused ⟨full, rfl⟩
        · cases failed
      · obtain ⟨room, rfl⟩ := run_enterGroup_eq_ok_iff.mp entered
        rw [run_expression_eq_additive, additive_eq_level] at failed
        rw [c.depth_next, here] at room
        exact inner room (reached.group kind entered) (by rw [c.depth_next, here]) failed
      · rw [run_expression_eq_additive, additive_eq_level] at found
        obtain ⟨other, rfl, rfl⟩ := run_expect_eq_error_iff.mp failed
        exact ⟨.closing, _, reached.closing kind entered found, other, rfl⟩
  | letKeyword | operator | equals | closeParen | endOfInput =>
      simp only [kind] at run refused
      cases run
      exact refused rfl

/-- Behind an operand of a chain, what is refused is refused in one of its further operands.
Witness: induction on the tokens left, of which each sign takes one.
-/
theorem proceed {tier : Tier} (operands : RefusesIn tokens tier.operands depth) {left : Expr}
    (reached : ComesTo tokens (.chain tier) c) (here : c.depth = depth)
    (run : ((Level.chain tier).proceed left).run c = .error error stopped)
    : IsRefused tokens error := by
  induction size : c.rest.length using Nat.strongRecOn generalizing c left with
  | _ size ih =>
      obtain ⟨op, spells, accepted, failed | ⟨right, middle, found, behind⟩⟩ :=
        Level.run_proceed_chain_eq_error_iff.mp run
      · exact operands (reached.next spells accepted) (by rw [c.depth_next, here]) failed
      · obtain ⟨phrase, -, stands⟩ := Level.run_parser_eq_ok_iff.mp found
        have word := Token.kind_ne_endOfInput_of_operator? spells
        have shorter := stands.reads.length_lt_of_next word
        exact ih middle.rest.length (by omega) (reached.joined spells accepted found)
          (by rw [stands.reads.depth, c.depth_next, here]) behind rfl

theorem chain {tier : Tier} (operands : RefusesIn tokens tier.operands depth)
    : RefusesIn tokens (.chain tier) depth := by
  intro c stopped error reached here run
  rw [Level.parser_chain] at run
  rcases run_bind_eq_error_iff.mp run with failed | ⟨e, middle, found, behind⟩
  · exact operands reached.first here failed
  · obtain ⟨phrase, -, stands⟩ := Level.run_parser_eq_ok_iff.mp found
    exact operands.proceed (reached.chain found) (by rw [stands.reads.depth, here]) behind

/-- In a phrase of any level it is a place that refuses what it finds. -/
theorem level (tokens : List Token) (level : Level) (depth : Nat)
    : RefusesIn tokens level depth := by
  induction level, depth using Level.induction_on_groups with
  | operand depth inner => exact .operand inner
  | chain tier depth operands => exact .chain operands

end RefusesIn

theorem isRefused_expression (reached : ComesTo tokens (.phrase (.chain .additive)) c)
    (run : expression.run c = .error error stopped)
    : IsRefused tokens error := by
  rw [run_expression_eq_additive] at run
  exact RefusesIn.level tokens (.chain .additive) c.depth reached rfl run

/-- A statement is refused at the head of the declaration that it is, or in its expression. -/
theorem isRefused_statement (reached : ComesTo tokens .statement c)
    (run : statement.run c = .error error stopped)
    : IsRefused tokens error := by
  rw [run_statement] at run
  split at run
  · next opens =>
      rcases run_bind_eq_error_iff.mp run with failed | ⟨_, _, read, behindKeyword⟩
      · cases failed
      cases read
      rcases run_bind_eq_error_iff.mp behindKeyword with failed | ⟨_, _, read, behindName⟩
      · obtain ⟨unnamed, rfl, rfl⟩ := run_expect_eq_error_iff.mp failed
        exact ⟨.statement, c, reached, opens, .inl ⟨unnamed, rfl⟩⟩
      obtain ⟨names, rfl, rfl⟩ := run_expect_eq_ok_iff.mp read
      rcases run_bind_eq_error_iff.mp behindName with failed | ⟨_, _, read, behindSign⟩
      · obtain ⟨undefined, rfl, rfl⟩ := run_expect_eq_error_iff.mp failed
        exact ⟨.statement, c, reached, opens, .inr ⟨names, undefined, rfl⟩⟩
      obtain ⟨defines, rfl, rfl⟩ := run_expect_eq_ok_iff.mp read
      rcases run_bind_eq_error_iff.mp behindSign with failed | ⟨_, _, _, ended⟩
      · exact isRefused_expression (reached.initializer opens names defines) failed
      · cases ended
  · next other =>
      rcases run_bind_eq_error_iff.mp run with failed | ⟨_, _, _, ended⟩
      · exact isRefused_expression (reached.expression other) failed
      · cases ended

/-- Of statements that are refused, one is. Witness: induction on the tokens left, of which each
statement takes some.
-/
theorem isRefused_statements {parsed : Program} (reached : ComesTo tokens .boundary c)
    (run : (statements parsed).run c = .error error stopped)
    : IsRefused tokens error := by
  induction size : c.rest.length using Nat.strongRecOn generalizing c parsed with
  | _ size ih =>
      rw [run_statements] at run
      split at run
      · cases run
      · next inside =>
          rcases run_bind_eq_error_iff.mp run with failed | ⟨_, middle, first, behind⟩
          · exact isRefused_statement (reached.statement inside) failed
          · obtain ⟨clause, -, stands⟩ := run_statement_eq_ok_iff.mp first
            have fewer := clause.length_rest_lt stands.reads
            exact ih middle.rest.length (by omega) (reached.boundary inside first) behind rfl

/-- A token list is refused with an error exactly if the parser comes to a place that refuses what
it finds with that error.
-/
theorem ofTokens_eq_error_iff_isRefused
    : Program.ofTokens tokens = .error error ↔ IsRefused tokens error := by
  constructor
  · intro refused
    obtain ⟨stopped, run⟩ := Program.ofTokens_eq_error_iff.mp refused
    exact isRefused_statements .start run
  · rintro ⟨place, c, reached, refuses⟩
    exact reached.ofTokens_eq_error refuses.fails

/-- Only an operand refuses a group for being too many, one that its own parenthesis would open. -/
theorem Place.refuses_nestingTooDeep_iff {line : Nat}
    : place.Refuses (.nestingTooDeep line) c
      ↔ place = .phrase .operand
        ∧ c.peek.kind = .openParen
        ∧ maxOpenGroups ≤ c.depth
        ∧ line = c.peek.line := by
  cases place with
  | boundary | chain tier | statement | closing => simp [Refuses]
  | phrase level =>
      cases level with
      | chain tier => simp [Refuses]
      | operand => cases kind : c.peek.kind <;> simp [Refuses, kind]

/-- Only an operand refuses the text of a number, that of its own token. -/
theorem Place.refuses_invalidNumber_iff {text : String} {line : Nat}
    : place.Refuses (.invalidNumber text line) c
      ↔ place = .phrase .operand
        ∧ c.peek.kind = .number
        ∧ Binary64.ofText? c.peek.text = none
        ∧ text = c.peek.text
        ∧ line = c.peek.line := by
  cases place with
  | boundary | chain tier | statement | closing => simp [Refuses]
  | phrase level =>
      cases level with
      | chain tier => simp [Refuses]
      | operand => cases kind : c.peek.kind <;> simp [Refuses, kind]

end Parser
end Reckoner
