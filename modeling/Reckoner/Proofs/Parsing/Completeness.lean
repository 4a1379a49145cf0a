import Reckoner.Proofs.Parsing.Recursion

/-! Every phrase is read: the parser of its level succeeds where the phrase stands, and gives
its expression. Together with soundness, success is exactly the standing of a phrase.
-/

namespace Reckoner

/-- What the parser of a level does behind a phrase of that level: nothing more behind an
operand, and behind a chain the further signs and operands of the chain.
-/
def Level.proceed : Level → Expr → Parser Expr
  | operand, e => return e
  | chain tier, e => do .chainFrom tier.accepts tier.operands.parser (← get).rest e

/-- The level of the operands of a chain. An operand is its own. -/
def Level.tighter : Level → Level
  | operand => operand
  | chain tier => tier.operands

namespace Level

theorem not_extends_tighter {level : Level} {token : Token} (ends : ¬ level.Extends token)
    : ¬ level.tighter.Extends token := by
  cases level with
  | operand => exact ends
  | chain tier =>
      intro inner
      exact ends ((extends_chain_iff tier token).mpr (Or.inr inner))

/-- A chain is its first operand and whatever goes on behind that. -/
theorem parser_chain (tier : Tier)
    : (chain tier).parser = tier.operands.parser >>= (chain tier).proceed := by
  rw [parser, parserWith_chain]
  rfl

theorem run_proceed_chain (tier : Tier) (e : Expr) (c : Cursor)
    : ((chain tier).proceed e).run c
      = (Parser.chainFrom tier.accepts tier.operands.parser c.rest e).run c := by
  rw [proceed, EStateM.run_bind, EStateM.run_get]

/-- Behind an accepted sign a chain reads an operand and goes on, and in front of any other
token it ends. No bound is left to stop it.
-/
theorem run_proceed_chain_eq (tier : Tier) (e : Expr) (c : Cursor)
    : ((chain tier).proceed e).run c
      = match c.peek.operator? with
        | some op =>
            if tier.accepts op then
              (do
                let right ← tier.operands.parser
                (chain tier).proceed (.binary e op right c.peek.line)).run c.next
            else
              .ok e c
        | none => .ok e c := by
  rw [run_proceed_chain]
  cases rest : c.rest with
  | nil =>
      have silent : c.peek.operator? = none := by
        rw [Cursor.peek, rest]
        rfl
      rw [silent]
      rfl
  | cons token more =>
      rw [Parser.run_chainFrom_cons]
      cases spells : c.peek.operator? with
      | none => rfl
      | some op =>
          simp only [EStateM.run_bind]
          cases found : tier.operands.parser.run c.next with
          | error error stopped => rfl
          | ok right middle =>
              obtain ⟨phrase, _, stands⟩ := Parser.parser_sound tier.operands found
              have word := Token.kind_ne_endOfInput_of_operator? spells
              have shorter := stands.reads.length_lt_of_next word
              rw [rest, List.length_cons] at shorter
              have same := Parser.run_chainFrom_of_le (Parser.parser_sound tier.operands)
                (.binary e op right c.peek.line) (show middle.rest.length ≤ more.length by omega)
                (Nat.le_refl _)
              simp only [same, run_proceed_chain]

/-- Behind an operand a chain fails in the operand behind an accepted sign, or behind that. -/
theorem run_proceed_chain_eq_error_iff {tier : Tier} {e : Expr} {c stopped : Cursor}
    {error : SyntaxError}
    : ((chain tier).proceed e).run c = .error error stopped
      ↔ ∃ op, c.peek.operator? = some op
        ∧ tier.accepts op
        ∧ (tier.operands.parser.run c.next = .error error stopped
          ∨ ∃ right middle, tier.operands.parser.run c.next = .ok right middle
            ∧ ((chain tier).proceed (.binary e op right c.peek.line)).run middle
              = .error error stopped) := by
  rw [run_proceed_chain_eq]
  cases spells : c.peek.operator? with
  | none => simp
  | some op =>
      by_cases accepted : tier.accepts op
      · simp only [if_pos accepted, Parser.run_bind_eq_error_iff]
        simp [accepted]
      · simp [accepted]

theorem run_proceed {level : Level} (e : Expr) {c : Cursor} (ends : ¬ level.Extends c.peek)
    : (level.proceed e).run c = .ok e c := by
  cases level with
  | operand => rfl
  | chain tier =>
      rw [run_proceed_chain]
      exact Parser.run_chainFrom_of_not_extends _ _ e ends

/-- What holds of operands if it holds of the expressions in groups, with one more group open,
and of chains if it holds of what stands between their signs, holds of every level with any
number of groups open. Witness: induction on the groups that may still be opened.
-/
@[elab_as_elim]
theorem induction_on_groups {motive : Level → Nat → Prop}
    (operand : ∀ depth, (depth < maxOpenGroups → motive (.chain .additive) (depth + 1)) →
      motive .operand depth)
    (chain : ∀ tier depth, motive tier.operands depth → motive (.chain tier) depth)
    (level : Level) (depth : Nat)
    : motive level depth := by
  have levels {depth : Nat} (operands : motive .operand depth) (level : Level)
      : motive level depth := by
    have factors := chain .multiplicative depth operands
    cases level with
    | operand => exact operands
    | chain tier =>
        cases tier with
        | multiplicative => exact factors
        | additive => exact chain .additive depth factors
  induction room : maxOpenGroups - depth generalizing depth level with
  | zero => exact levels (operand depth fun fewer => by omega) level
  | succ room ih =>
      exact levels (operand depth fun _ => ih (.chain .additive) (depth + 1) (by omega)) level

end Level

theorem Cursor.Reads.single {c c' : Cursor} {token : Token} (reads : c.Reads [token] c')
    (word : token.kind ≠ .endOfInput)
    : c.peek = token ∧ c.next = c' := by
  obtain ⟨found, behind⟩ := reads.head word
  exact ⟨found, (Cursor.Reads.refl c.next).unique behind⟩

/-- Where a phrase stands, the parser of its level gets behind it, with its expression, and
goes on from there. What comes next may extend the phrase, but not its last operand.
Witness: induction on the phrase. A chain goes on from its left part, since the sign there
does not extend the last operand of that part.
-/
theorem Phrase.run_of_reads {level : Level} (phrase : Phrase level) {c c' : Cursor}
    (reads : c.Reads phrase.tokens c') (room : phrase.nesting ≤ maxOpenGroups - c.depth)
    (ends : ¬ level.tighter.Extends c'.peek)
    : level.parser.run c = (level.proceed phrase.expr).run c' := by
  induction phrase generalizing c c' with
  | number token value kind reads' =>
      obtain ⟨rfl, rfl⟩ := reads.single (by simp [kind])
      rw [Level.parser, Level.parserWith, Parser.run_primaryWith, kind]
      simp only [reads']
      rfl
  | null token kind =>
      obtain ⟨rfl, rfl⟩ := reads.single (by simp [kind])
      rw [Level.parser, Level.parserWith, Parser.run_primaryWith, kind]
      rfl
  | name token kind =>
      obtain ⟨rfl, rfl⟩ := reads.single (by simp [kind])
      rw [Level.parser, Level.parserWith, Parser.run_primaryWith, kind]
      rfl
  | group opening inner closing opens closes innerIH =>
      obtain ⟨rfl, behind⟩ := reads.head (by simp [opens])
      obtain ⟨middle, inside, closed⟩ := behind.split
      obtain ⟨closing', landed⟩ := (closed.withDepth (c.next.depth + 1)).single
        (by simp [closes])
      have outside : c'.depth = c.next.depth := closed.depth.trans inside.depth
      have room' : inner.nesting ≤ maxOpenGroups - (c.next.depth + 1) := by
        simp only [nesting, c.depth_next] at room ⊢
        omega
      have silent : ¬ (Level.chain .additive).Extends closing :=
        Level.not_extends_of_kind _ (by simp [closes])
      have run := innerIH (inside.withDepth (c.next.depth + 1)) room'
        (Level.not_extends_tighter (closing' ▸ silent))
      rw [Level.run_proceed inner.expr (closing' ▸ silent)] at run
      rw [Level.parser, Level.parserWith, Parser.run_primaryWith, opens]
      apply Parser.run_groupWith_eq_ok_iff.mpr
      refine ⟨?_, _, (Parser.run_expression_eq_additive _).trans run, ?_, ?_⟩
      · simp only [nesting, c.depth_next] at room ⊢
        omega
      · rw [closing', closes]
      · rw [landed]
        simp only [Nat.add_sub_cancel, ← outside]
  | @first tier operand operandIH =>
      have silent : ¬ tier.operands.Extends c'.peek := ends
      have read := operandIH reads room (Level.not_extends_tighter silent)
      rw [Level.run_proceed operand.expr silent] at read
      rw [Level.run_proceed_chain, Level.parser, Level.parserWith_chain, Parser.chain,
        EStateM.run_bind, ← Level.parser, read]
      rfl
  | @joined tier left sign op right spells accepted leftIH rightIH =>
      have word := Token.kind_ne_endOfInput_of_operator? spells
      obtain ⟨middle, before, behind⟩ := reads.split
      obtain ⟨rfl, after⟩ := behind.head word
      have fits : left.nesting ≤ maxOpenGroups - c.depth
          ∧ right.nesting ≤ maxOpenGroups - middle.next.depth := by
        rw [middle.depth_next, before.depth]
        exact Nat.max_le.mp room
      have silent : ¬ tier.operands.Extends c'.peek := ends
      have read := rightIH after fits.2 (Level.not_extends_tighter silent)
      rw [Level.run_proceed right.expr silent] at read
      rw [leftIH before fits.1 (Level.not_extends_operands spells accepted),
        Level.run_proceed_chain_eq, spells]
      simp only [if_pos accepted, EStateM.run_bind, read]
      rfl

/-- A phrase that stands between two cursors is what the parser of its level reads. -/
theorem Phrase.StandsBetween.run {level : Level} {phrase : Phrase level} {c c' : Cursor}
    (stands : phrase.StandsBetween c c')
    : level.parser.run c = .ok phrase.expr c' := by
  rw [phrase.run_of_reads stands.reads stands.room (Level.not_extends_tighter stands.ends),
    Level.run_proceed phrase.expr stands.ends]

/-- A parser of expressions succeeds between two cursors exactly if a phrase stands there. -/
theorem Level.run_parser_eq_ok_iff {level : Level} {c c' : Cursor} {e : Expr}
    : level.parser.run c = .ok e c'
      ↔ ∃ phrase : Phrase level, phrase.expr = e ∧ phrase.StandsBetween c c' := by
  constructor
  · exact fun run => Parser.parser_sound level run
  · intro standing
    obtain ⟨phrase, rfl, stands⟩ := standing
    exact stands.run

theorem Parser.additive_eq_level
    : additive = (Level.chain .additive).parser :=
  rfl

/-- An expression is read exactly if a phrase of the looser tier stands there. -/
theorem Parser.run_expression_eq_ok_iff {c c' : Cursor} {e : Expr}
    : expression.run c = .ok e c'
      ↔ ∃ phrase : Phrase (.chain .additive),
          phrase.expr = e ∧ phrase.StandsBetween c c' := by
  rw [run_expression_eq_additive, additive_eq_level]
  exact Level.run_parser_eq_ok_iff

end Reckoner
