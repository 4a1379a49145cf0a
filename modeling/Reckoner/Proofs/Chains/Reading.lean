import Reckoner.Proofs.Chains.Pass
import Reckoner.Proofs.Printing.RoundTrip
import Reckoner.Proofs.Sessions.Joining

/-! Chains of operators as sources. The source of a chain is read as the chain's tree, whatever
the mix of its operators, so that a session runs it as the one-pass calculator does.
-/

namespace Reckoner

theorem Operand.writes (operand : Operand)
    : Level.operand.Writes operand.text.toList operand.leaf 0 := by
  cases operand with
  | digits run nonempty all =>
      have spelled : TokenKind.number.IsSpelledBy (String.ofList run).toList := by
        rw [String.toList_ofList]
        exact ⟨nonempty, all⟩
      exact .numeral spelled (Binary64.ofText?_of_digits nonempty all) 1
  | null => exact .null 1
  | reference name isName => exact .reference isName 1

theorem toList_linkText (op : Operator) (operand : Operand)
    : (linkText (op, operand)).toList = ' ' :: op.character :: ' ' :: operand.text.toList := by
  simp [linkText, Operator.toList_symbol]

/-- A text is read as the trees that a pass over it has: a product, and the sum that it goes on
with if there is one.
-/
inductive Tally.ReadFrom : List Char → Tally Expr → Prop
  | product {text : List Char} {current : Expr}
    (writes : (Level.chain .multiplicative).Writes text current 0)
    : ReadFrom text { pending := none, current := current }
  | sum {before behind : List Char} {left current : Expr} {op : Operator}
    (additive : op.isAdditive) (first : (Level.chain .additive).Writes before left 0)
    (second : (Level.chain .multiplicative).Writes behind current 0)
    : ReadFrom (before ++ ' ' :: op.character :: ' ' :: behind)
        { pending := some (left, op), current := current }

namespace Tally.ReadFrom

variable {text : List Char} {tally : Tally Expr}

theorem close (read : ReadFrom text tally)
    : (Level.chain .additive).Writes text tally.close 0 := by
  cases read with
  | product writes => exact writes.additive
  | @sum before behind left current op additive first second =>
      rw [← op.tier_eq_additive additive] at first
      have second : op.tier.operands.Writes behind current 0 := by
        rwa [op.tier_eq_additive additive]
      have joined := Level.Writes.joined 1 first second
      exact joined.additive

/-- What is read of a source goes on with an operator and the operand behind it. -/
theorem graft (read : ReadFrom text tally) (next : Operator × Operand)
    : ReadFrom (text ++ (linkText next).toList) (tally.graft next) := by
  obtain ⟨op, operand⟩ := next
  rw [toList_linkText]
  cases additive : op.isAdditive with
  | true =>
      rw [Tally.graft, if_pos additive]
      exact .sum additive read.close operand.writes.of_operand
  | false =>
      have tier := op.tier_eq_multiplicative additive
      have extend {text : List Char} {current : Expr}
          (writes : (Level.chain .multiplicative).Writes text current 0)
          : (Level.chain .multiplicative).Writes
              (text ++ ' ' :: op.character :: ' ' :: operand.text.toList)
              (.binary current op operand.leaf 1) 0 := by
        rw [← tier] at writes ⊢
        exact writes.joined 1 operand.writes.of_operand
      simp only [Tally.graft, additive]
      cases read with
      | product writes => exact .product (extend writes)
      | sum pending first second =>
          rw [List.append_assoc]
          exact .sum pending first (extend second)

/-- The same of what is left of a chain, by induction on it. -/
theorem foldl_graft (read : ReadFrom text tally) (rest : List (Operator × Operand))
    : ReadFrom (text ++ (String.join (rest.map linkText)).toList)
        (rest.foldl Tally.graft tally) := by
  induction rest generalizing text tally with
  | nil => simpa using read
  | cons next rest ih =>
      rw [List.map_cons, String.join_cons, String.toList_append, ← List.append_assoc]
      exact ih (read.graft next)

end Tally.ReadFrom

/-- Trees stay on the first line. -/
theorem Tally.mapLines_close_graft {tally : Tally Expr}
    (flat : tally.close.mapLines (fun _ => 1) = tally.close) (next : Operator × Operand)
    : (tally.graft next).close.mapLines (fun _ => 1) = (tally.graft next).close := by
  obtain ⟨op, operand⟩ := next
  have leaf : operand.leaf.mapLines (fun _ => 1) = operand.leaf := by
    cases operand <;> rfl
  cases additive : op.isAdditive with
  | true =>
      have closed : (tally.graft (op, operand)).close
          = .binary tally.close op operand.leaf 1 := by
        rw [graft, if_pos additive]
        rfl
      rw [closed, Expr.mapLines, flat, leaf]
  | false =>
      obtain ⟨pending, current⟩ := tally
      cases pending <;> simpa [graft, additive, close, Expr.mapLines, leaf] using flat

namespace Chain

theorem mapLines_tree (chain : Chain)
    : chain.tree.mapLines (fun _ => 1) = chain.tree := by
  refine List.foldlRecOn
    (motive := fun tally => tally.close.mapLines (fun _ => 1) = tally.close)
    chain.rest Tally.graft ?_ fun _ flat next _ => Tally.mapLines_close_graft flat next
  cases chain.first <;> rfl

/-- The source of a chain is read as its tree alone. -/
theorem ofSource_source (chain : Chain)
    : Program.ofSource chain.source = .ok [.expression chain.tree 1] := by
  have start : Tally.ReadFrom chain.first.text.toList
      { pending := none, current := chain.first.leaf } :=
    .product chain.first.writes.of_operand
  have writes : (Level.chain .additive).Writes chain.source.toList chain.tree 0 := by
    rw [source, String.toList_append]
    exact (start.foldl_graft chain.rest).close
  rw [writes.ofSource (Nat.zero_le _), chain.mapLines_tree]

end Chain

/-- A session runs a chain of operators, of any length and mix, as a calculator that goes over it
once does: it comes to the same value or the same error, and nothing is declared.
-/
theorem Session.run_chain (session : Session) (chain : Chain)
    : (session.run chain.source).result
        = (chain.calculate session.environment).mapError .runtime
      ∧ (session.run chain.source).session = session := by
  have done := run_of_ofSource chain.ofSource_source session
  have execute : (Program.execute session.environment [.expression chain.tree 1]).result
        = chain.calculate session.environment
      ∧ (Program.execute session.environment [.expression chain.tree 1]).environment
        = session.environment := by
    simp only [Program.execute, Program.executeFrom, Statement.execute, Expr.evaluate_eq,
      chain.denote_tree]
    cases chain.calculate session.environment <;> exact ⟨rfl, rfl⟩
  rw [done.1, done.2, execute.1, execute.2]
  exact ⟨rfl, rfl⟩

/-- The product is calculated before the difference, whose left side is no number either. -/
example
    : (Session.fresh.run "null - 3 * null").result
      = .error (.runtime (.notANumber "right operand" "null" 1)) := by
  decide +kernel

end Reckoner
