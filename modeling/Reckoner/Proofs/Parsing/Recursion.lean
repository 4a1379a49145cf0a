import Reckoner.Proofs.Parsing.Reading

/-! The parsers of the three levels call each other as their rules do: the bounds that make
the recursion well-founded, on groups and on the length of chains, never stop it.
-/

namespace Reckoner

theorem Cursor.depth_next (c : Cursor)
    : c.next.depth = c.depth := by
  unfold next
  split
  · rfl
  · split <;> rfl

namespace Parser

-----------------------------------------------------------------------------------------
-- The bound on groups
-----------------------------------------------------------------------------------------

/-- Two parsers agree wherever the given number of groups is open. -/
def AgreeAt (depth : Nat) (p q : Parser Expr) : Prop :=
  ∀ c : Cursor, c.depth = depth → p.run c = q.run c

theorem AgreeAt.primaryWith {depth : Nat} {inner inner' : Parser Expr}
    (agree : depth < maxOpenGroups → AgreeAt (depth + 1) inner inner')
    : AgreeAt depth (primaryWith inner) (primaryWith inner') := by
  intro c here
  rw [run_primaryWith, run_primaryWith]
  cases c.peek.kind with
  | openParen =>
      simp only [groupWith, EStateM.run_bind]
      cases opened : (enterGroup c.peek.line).run c.next with
      | error error stopped => rfl
      | ok u inside =>
          obtain ⟨room, rfl⟩ := run_enterGroup_eq_ok_iff.mp opened
          rw [Cursor.depth_next, here] at room
          have same := agree room { c.next with depth := c.next.depth + 1 }
            (by rw [Cursor.depth_next, here])
          simp only [same]
  | _ => rfl

/-- Chains agree where their operands do, which give back the groups they open. -/
theorem AgreeAt.chainFrom {depth : Nat} {level : Level} {operand operand' : Parser Expr}
    (agree : AgreeAt depth operand operand') (sound : operand.Sound level)
    (accepts : Operator → Bool) (bound : List Token) (left : Expr)
    : AgreeAt depth (chainFrom accepts operand bound left)
        (chainFrom accepts operand' bound left) := by
  intro c here
  induction bound generalizing c left with
  | nil => rfl
  | cons token bound ih =>
      rw [run_chainFrom_cons, run_chainFrom_cons, ← agree c.next (by rw [c.depth_next, here])]
      cases c.peek.operator? with
      | none => rfl
      | some op =>
          cases found : operand.run c.next with
          | error error stopped => rfl
          | ok right middle =>
              obtain ⟨phrase, _, stands⟩ := sound found
              have there : middle.depth = depth := by
                rw [stands.reads.depth, c.depth_next, here]
              simp only [ih (.binary left op right c.peek.line) middle there]

theorem AgreeAt.chain {depth : Nat} {level : Level} {operand operand' : Parser Expr}
    (agree : AgreeAt depth operand operand') (sound : operand.Sound level)
    (accepts : Operator → Bool)
    : AgreeAt depth (chain accepts operand) (chain accepts operand') := by
  intro c here
  simp only [Parser.chain, EStateM.run_bind, ← agree c here]
  cases found : operand.run c with
  | error error stopped => rfl
  | ok left middle =>
      obtain ⟨phrase, _, stands⟩ := sound found
      have there : middle.depth = depth := by
        rw [stands.reads.depth, here]
      exact agree.chainFrom sound accepts middle.rest left middle there

theorem AgreeAt.parserWith {depth : Nat} {inner inner' : Parser Expr}
    (agree : depth < maxOpenGroups → AgreeAt (depth + 1) inner inner')
    (sound : inner.Sound (.chain .additive)) (level : Level)
    : AgreeAt depth (level.parserWith inner) (level.parserWith inner') := by
  have operands := AgreeAt.primaryWith agree
  have factors := operands.chain sound.primaryWith Operator.isMultiplicative
  cases level with
  | operand => exact operands
  | chain tier =>
      cases tier with
      | multiplicative => exact factors
      | additive =>
          exact factors.chain (sound.parserWith (.chain .multiplicative))
            Operator.isAdditive

/-- An expression is a chain of the looser tier, whose operands may hold expressions again.
Witness: with one more group open, the bound on groups is one less, which is the bound that
an expression starts with there.
-/
theorem run_expression_eq_additive (c : Cursor)
    : expression.run c = additive.run c := by
  rw [run_expression]
  have agree : c.depth < maxOpenGroups
      → AgreeAt (c.depth + 1) (expressionWithin (maxOpenGroups - c.depth)) expression := by
    intro room d deeper
    have bound : maxOpenGroups - d.depth + 1 = maxOpenGroups - c.depth := by
      omega
    rw [run_expression, bound]
  exact AgreeAt.parserWith agree (sound_expressionWithin _) (.chain .additive) c rfl

-----------------------------------------------------------------------------------------
-- The bound on chains
-----------------------------------------------------------------------------------------

theorem run_chainFrom_of_not_extends {tier : Tier} (operand : Parser Expr) (bound : List Token)
    (left : Expr) {c : Cursor} (ends : ¬ (Level.chain tier).Extends c.peek)
    : (chainFrom tier.accepts operand bound left).run c = .ok left c := by
  cases bound with
  | nil => rfl
  | cons token bound =>
      rw [run_chainFrom_cons]
      cases spells : c.peek.operator? with
      | none => rfl
      | some op =>
          have refused : ¬ tier.accepts op := by
            intro accepted
            exact ends ((Level.extends_chain_iff tier c.peek).mpr
              (Or.inl ⟨op, spells, accepted⟩))
          exact if_neg refused

/-- Any bound that is no shorter than the tokens left lets a chain go on as far as it can.
Witness: induction on the bound. Each operand leaves fewer tokens than the sign before it.
-/
theorem run_chainFrom_of_le {tier : Tier} {operand : Parser Expr}
    (sound : operand.Sound tier.operands) {bound bound' : List Token} (left : Expr)
    {c : Cursor} (enough : c.rest.length ≤ bound.length)
    (enough' : c.rest.length ≤ bound'.length)
    : (chainFrom tier.accepts operand bound left).run c
      = (chainFrom tier.accepts operand bound' left).run c := by
  induction bound generalizing bound' left c with
  | nil =>
      have ends := (Level.chain tier).not_extends_peek (Nat.le_zero.mp enough)
      rw [run_chainFrom_of_not_extends operand _ left ends,
        run_chainFrom_of_not_extends operand _ left ends]
  | cons token bound ih =>
      cases bound' with
      | nil =>
          have ends := (Level.chain tier).not_extends_peek (Nat.le_zero.mp enough')
          rw [run_chainFrom_of_not_extends operand _ left ends,
            run_chainFrom_of_not_extends operand _ left ends]
      | cons token' bound' =>
          rw [run_chainFrom_cons, run_chainFrom_cons]
          cases spells : c.peek.operator? with
          | none => rfl
          | some op =>
              cases found : operand.run c.next with
              | error error stopped => rfl
              | ok right middle =>
                  obtain ⟨phrase, _, stands⟩ := sound found
                  have word := Token.kind_ne_endOfInput_of_operator? spells
                  have shorter := stands.reads.length_lt_of_next word
                  rw [List.length_cons] at enough enough'
                  have same := ih (.binary left op right c.peek.line)
                    (show middle.rest.length ≤ bound.length by omega)
                    (show middle.rest.length ≤ bound'.length by omega)
                  simp only [same]

end Parser
end Reckoner
