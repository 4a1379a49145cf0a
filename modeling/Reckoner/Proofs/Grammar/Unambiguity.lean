import Mathlib.Data.List.Basic
import Mathlib.Data.List.Induction
import Reckoner.Proofs.Grammar.Phrase

/-! The grammar is unambiguous: tokens have at most one derivation. Derivations are compared
from their last tokens on, since chains grow to the right.
-/

namespace Reckoner

-----------------------------------------------------------------------------------------
-- Phrases are determined by the tokens that end with theirs
-----------------------------------------------------------------------------------------

/-- The tokens in front of a phrase do not end with a sign that would extend it. -/
def Level.Separates (level : Level) (front : List Token) : Prop :=
  ∀ token, front.getLast? = some token → ¬ level.Extends token

namespace Level

theorem Separates.operands {tier : Tier} {front : List Token}
    (separate : (Level.chain tier).Separates front)
    : tier.operands.Separates front := by
  intro token last extends_
  exact separate token last ((extends_chain_iff tier token).mpr (Or.inr extends_))

theorem separates_concat {level : Level} (front : List Token) {token : Token}
    (silent : ¬ level.Extends token)
    : level.Separates (front ++ [token]) := by
  intro last found
  rw [List.getLast?_concat] at found
  exact Option.some.inj found ▸ silent

theorem not_separates_concat {tier : Tier} (front : List Token) {sign : Token} {op : Operator}
    (spells : sign.operator? = some op) (accepted : tier.accepts op)
    : ¬ (Level.chain tier).Separates (front ++ [sign]) := by
  intro separate
  exact separate sign List.getLast?_concat
    ((extends_chain_iff tier sign).mpr (Or.inl ⟨op, spells, accepted⟩))

end Level

theorem Phrase.eq_of_tokens_eq_singleton {token : Token} {operand other : Phrase .operand}
    (derived : operand.tokens = [token]) (derived' : other.tokens = [token])
    : operand = other := by
  cases operand <;> cases other <;>
    simp only [tokens, List.cons.injEq, List.append_eq_nil_iff, List.cons_ne_nil, and_true,
      and_false] at derived derived' <;>
    grind

/-- An operand that ends like a single token other than a parenthesis is that token alone,
since a group ends with its parenthesis.
-/
theorem Phrase.tokens_eq_singleton {token : Token} {front front' : List Token}
    (operand : Phrase .operand) (kind : token.kind ≠ .closeParen)
    (same : front ++ [token] = front' ++ operand.tokens)
    : operand.tokens = [token] ∧ front = front' := by
  cases operand with
  | number other | null other | name other =>
      obtain ⟨fronts, derived⟩ := List.append_inj' same rfl
      exact ⟨derived.symm, fronts⟩
  | group opening inner closing opens closes =>
      simp only [tokens, ← List.cons_append, ← List.append_assoc] at same
      obtain ⟨_, rfl⟩ := List.append_singleton_inj.mp same
      exact absurd closes kind

/-- Two phrases of a level that end the same tokens are the same phrase, if what stands in
front of them separates.
Witness: induction on the first phrase. The last operands agree, then the signs in front of
them; a chain of one operand cannot stand where the other has a sign.
-/
theorem Phrase.eq_of_append_tokens {level : Level} (phrase other : Phrase level)
    {front front' : List Token} (separate : level.Separates front)
    (separate' : level.Separates front')
    (same : front ++ phrase.tokens = front' ++ other.tokens)
    : phrase = other ∧ front = front' := by
  induction phrase generalizing front front' with
  | number token value kind reads =>
      obtain ⟨derived, fronts⟩ := other.tokens_eq_singleton (by simp [kind]) same
      exact ⟨eq_of_tokens_eq_singleton rfl derived, fronts⟩
  | null token kind =>
      obtain ⟨derived, fronts⟩ := other.tokens_eq_singleton (by simp [kind]) same
      exact ⟨eq_of_tokens_eq_singleton rfl derived, fronts⟩
  | name token kind =>
      obtain ⟨derived, fronts⟩ := other.tokens_eq_singleton (by simp [kind]) same
      exact ⟨eq_of_tokens_eq_singleton rfl derived, fronts⟩
  | group opening inner closing opens closes innerIH =>
      have alone {token : Token} (kind : token.kind ≠ .closeParen)
          (found : other.tokens = [token])
          : False := by
        rw [found] at same
        have derived := (tokens_eq_singleton (group opening inner closing opens closes)
          kind same.symm).1
        simp [tokens] at derived
      cases other with
      | number token value kind reads => exact (alone (by simp [kind]) rfl).elim
      | null token kind => exact (alone (by simp [kind]) rfl).elim
      | name token kind => exact (alone (by simp [kind]) rfl).elim
      | group opening' inner' closing' opens' closes' =>
          simp only [tokens, ← List.cons_append, ← List.append_assoc] at same
          obtain ⟨inside, rfl⟩ := List.append_singleton_inj.mp same
          have starts (token : Token) (opens : token.kind = .openParen) (front : List Token)
              : (Level.chain .additive).Separates (front ++ [token]) :=
            Level.separates_concat front (Level.not_extends_of_kind _ (by simp [opens]))
          obtain ⟨rfl, openings⟩ := innerIH inner' (starts opening opens front)
            (starts opening' opens' front')
            (by simpa only [List.append_assoc, List.singleton_append] using inside)
          obtain ⟨fronts, rfl⟩ := List.append_singleton_inj.mp openings
          exact ⟨rfl, fronts⟩
  | @first tier operand operandIH =>
      cases other with
      | first operand' =>
          obtain ⟨rfl, fronts⟩ := operandIH operand' separate.operands separate'.operands same
          exact ⟨rfl, fronts⟩
      | joined left' sign' op' right' spells' accepted' =>
          -- The first operand would stand right behind the other chain's last sign.
          have silent := Level.not_extends_operands spells' accepted'
          obtain ⟨_, fronts⟩ := operandIH right' separate.operands
            (Level.separates_concat (front' ++ left'.tokens) silent)
            (by simpa only [tokens, List.append_assoc, List.singleton_append] using same)
          exact absurd (fronts ▸ separate)
            (Level.not_separates_concat (front' ++ left'.tokens) spells' accepted')
  | @joined tier left sign op right spells accepted leftIH rightIH =>
      have silent := Level.not_extends_operands spells accepted
      have separates := Level.separates_concat (front ++ left.tokens) silent
      cases other with
      | first operand' =>
          obtain ⟨_, fronts⟩ := rightIH operand' separates separate'.operands
            (by simpa only [tokens, List.append_assoc, List.singleton_append] using same)
          exact absurd (fronts ▸ separate')
            (Level.not_separates_concat (front ++ left.tokens) spells accepted)
      | joined left' sign' op' right' spells' accepted' =>
          have silent' := Level.not_extends_operands spells' accepted'
          obtain ⟨rfl, signs⟩ := rightIH right' separates
            (Level.separates_concat (front' ++ left'.tokens) silent')
            (by simpa only [tokens, List.append_assoc, List.singleton_append] using same)
          obtain ⟨lefts, rfl⟩ := List.append_singleton_inj.mp signs
          obtain rfl := Option.some.inj (spells.symm.trans spells')
          obtain ⟨rfl, fronts⟩ := leftIH left' separate separate' lefts
          exact ⟨rfl, fronts⟩

-----------------------------------------------------------------------------------------
-- Derivations of programs are determined by their tokens
-----------------------------------------------------------------------------------------

theorem TokenKind.ne_operator_of_closesPhrase {kind : TokenKind} (closes : kind.closesPhrase)
    : kind ≠ .operator := by
  intro operator
  subst operator
  cases closes

theorem Clause.tokens_eq_concat (clause : Clause)
    : ∃ front last, clause.tokens = front ++ [last] ∧ last.kind.closesPhrase := by
  cases clause with
  | expression value => exact value.tokens_eq_concat
  | declaration keyword name equals initializer opens names defines =>
      obtain ⟨front, last, derived, closes⟩ := initializer.tokens_eq_concat
      exact ⟨keyword :: name :: equals :: front, last, by simp only [tokens, derived]; rfl,
        closes⟩

namespace Derivation

theorem closesPhrase_getLast {derivation : Derivation} {last : Token}
    (found : derivation.tokens.getLast? = some last)
    : last.kind.closesPhrase := by
  rcases List.eq_nil_or_concat' derivation with rfl | ⟨front, clause, rfl⟩
  · cases found
  · obtain ⟨start, final, derived, closes⟩ := clause.tokens_eq_concat
    rw [tokens_append, tokens_singleton, derived, ← List.append_assoc, List.getLast?_concat,
      Option.some.injEq] at found
    exact found ▸ closes

theorem tokens_concat_ne_nil (derivation : Derivation) (clause : Clause)
    : tokens (derivation ++ [clause]) ≠ [] := by
  obtain ⟨front, last, derived, _⟩ := clause.tokens_eq_concat
  simp [tokens_append, tokens_singleton, derived]

theorem separates_tokens (level : Level) (derivation : Derivation)
    : level.Separates derivation.tokens := by
  intro token found
  exact level.not_extends_of_kind
    (TokenKind.ne_operator_of_closesPhrase (closesPhrase_getLast found))

theorem tokens_ne_concat_equals (derivation : Derivation) (front : List Token) {sign : Token}
    (defines : sign.kind = .equals)
    : derivation.tokens ≠ front ++ [sign] := by
  intro same
  have last : derivation.tokens.getLast? = some sign := by
    rw [same, List.getLast?_concat]
  have closes := closesPhrase_getLast last
  rw [defines] at closes
  cases closes

/-- Two derivations with the same tokens end with the same clause, and agree in front of it.
Witness: their last phrases agree. A declaration has an equals sign in front of its phrase,
with which no other derivation can end.
-/
theorem concat_inj_of_tokens {front front' : Derivation} {clause clause' : Clause}
    (same : tokens (front ++ [clause]) = tokens (front' ++ [clause']))
    : clause = clause' ∧ front.tokens = front'.tokens := by
  simp only [tokens_append, tokens_singleton] at same
  have starts (start : List Token) {sign : Token} (defines : sign.kind = .equals)
      : (Level.chain .additive).Separates (start ++ [sign]) :=
    Level.separates_concat start (Level.not_extends_of_kind _ (by simp [defines]))
  cases clause with
  | expression value =>
      cases clause' with
      | expression value' =>
          obtain ⟨rfl, fronts⟩ := value.eq_of_append_tokens value'
            (separates_tokens _ front) (separates_tokens _ front') same
          exact ⟨rfl, fronts⟩
      | declaration keyword' name' equals' initializer' opens' names' defines' =>
          obtain ⟨_, fronts⟩ := value.eq_of_append_tokens initializer'
            (separates_tokens _ front) (starts (front'.tokens ++ [keyword', name']) defines')
            (by simpa [Clause.tokens] using same)
          exact absurd fronts (tokens_ne_concat_equals front _ defines')
  | declaration keyword name equals initializer opens names defines =>
      cases clause' with
      | expression value' =>
          obtain ⟨_, fronts⟩ := initializer.eq_of_append_tokens value'
            (starts (front.tokens ++ [keyword, name]) defines) (separates_tokens _ front')
            (by simpa [Clause.tokens] using same)
          exact absurd fronts.symm (tokens_ne_concat_equals front' _ defines)
      | declaration keyword' name' equals' initializer' opens' names' defines' =>
          obtain ⟨rfl, heads⟩ := initializer.eq_of_append_tokens initializer'
            (starts (front.tokens ++ [keyword, name]) defines)
            (starts (front'.tokens ++ [keyword', name']) defines')
            (by simpa [Clause.tokens] using same)
          simp only [List.append_assoc, List.cons_append, List.nil_append] at heads
          obtain ⟨fronts, threes⟩ := List.append_inj' heads rfl
          simp only [List.cons.injEq, and_true] at threes
          obtain ⟨rfl, rfl, rfl⟩ := threes
          exact ⟨rfl, fronts⟩

/-- The grammar is unambiguous: tokens have at most one derivation, by induction on one
derivation from its last clause on.
-/
theorem tokens_injective
    : Function.Injective tokens := by
  intro derivation
  induction derivation using List.reverseRecOn with
  | nil =>
      intro other same
      rcases List.eq_nil_or_concat' other with rfl | ⟨front, clause, rfl⟩
      · rfl
      · exact absurd same.symm (tokens_concat_ne_nil front clause)
  | append_singleton front clause ih =>
      intro other same
      rcases List.eq_nil_or_concat' other with rfl | ⟨front', clause', rfl⟩
      · exact absurd same (tokens_concat_ne_nil front clause)
      · obtain ⟨rfl, fronts⟩ := concat_inj_of_tokens same
        rw [ih fronts]

end Derivation
end Reckoner
