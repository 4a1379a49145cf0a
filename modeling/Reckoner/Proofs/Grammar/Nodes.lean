import Reckoner.Expr.Postorder
import Reckoner.Proofs.Grammar.Phrase

/-! The tokens of nodes. Every node of the expression that a phrase stands for has a token among
those of the phrase, whose text and line are its own.
-/

namespace Reckoner

/-- A token stands for a node that is its number, its null, its name or its operator, on its line.
-/
def Token.StandsFor (token : Token) : Node → Prop
  | .number value line =>
      token.kind = .number ∧ Binary64.ofText? token.text = some value ∧ line = token.line
  | .null line => token.kind = .nullKeyword ∧ line = token.line
  | .reference name line => token.kind = .identifier ∧ name = token.text ∧ line = token.line
  | .apply op line => token.operator? = some op ∧ line = token.line

/-- Every node of a phrase has a token, by induction on the phrase: parentheses have no node, and
a sign has that of the operator between what is on its sides.
-/
theorem Phrase.exists_standsFor {level : Level} (phrase : Phrase level)
    : ∀ node ∈ phrase.expr.postorder, ∃ token ∈ phrase.tokens, token.StandsFor node := by
  induction phrase with
  | number token value kind reads => simp [expr, tokens, Token.StandsFor, kind, reads]
  | null token kind => simp [expr, tokens, Token.StandsFor, kind]
  | name token kind => simp [expr, tokens, Token.StandsFor, kind]
  | group opening inner closing opens closes innerIH =>
      intro node member
      obtain ⟨token, inside, stands⟩ := innerIH node member
      exact ⟨token, by simp [tokens, inside], stands⟩
  | first operand operandIH => exact operandIH
  | joined left sign op right spells accepted leftIH rightIH =>
      intro node member
      simp only [expr, Expr.postorder_binary, List.mem_append, List.mem_singleton] at member
      obtain (before | behind) | rfl := member
      · obtain ⟨token, inside, stands⟩ := leftIH node before
        exact ⟨token, by simp [tokens, inside], stands⟩
      · obtain ⟨token, inside, stands⟩ := rightIH node behind
        exact ⟨token, by simp [tokens, inside], stands⟩
      · exact ⟨sign, by simp [tokens], spells, rfl⟩

end Reckoner
