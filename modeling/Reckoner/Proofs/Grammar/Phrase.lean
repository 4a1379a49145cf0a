import Reckoner.Program.Parse

/-! The grammar of programs, as the trees of its derivations. A phrase keeps every token it
derives, those of parentheses included, with the proof that its rule admits the token.
-/

namespace Reckoner

/-- The two tiers into which the grammar sorts the operators. -/
inductive Tier
  | additive
  | multiplicative
  deriving DecidableEq, Repr

/-- The operators of a tier. -/
def Tier.accepts : Tier → Operator → Bool
  | additive => Operator.isAdditive
  | multiplicative => Operator.isMultiplicative

/-- The levels of the grammar of expressions: operands, and chains of operators of a tier. -/
inductive Level
  | operand
  | chain (tier : Tier)
  deriving DecidableEq, Repr

/-- What stands between the operators of a tier: the tighter tier's chains, or operands. -/
def Tier.operands : Tier → Level
  | additive => .chain .multiplicative
  | multiplicative => .operand

/-- A derivation of the grammar of expressions, at a level:
`additive := multiplicative (("+" | "-") multiplicative)*`,
`multiplicative := operand (("*" | "/" | "%") operand)*` and
`operand := number | "null" | name | "(" additive ")"`.
A chain is its first operand, or a chain joined by a sign to one more operand.
-/
inductive Phrase : Level → Type
  | number (token : Token) (value : Binary64) (kind : token.kind = .number)
    (reads : Binary64.ofText? token.text = some value)
    : Phrase .operand
  | null (token : Token) (kind : token.kind = .nullKeyword)
    : Phrase .operand
  | name (token : Token) (kind : token.kind = .identifier)
    : Phrase .operand
  | group (opening : Token) (inner : Phrase (.chain .additive)) (closing : Token)
    (opens : opening.kind = .openParen) (closes : closing.kind = .closeParen)
    : Phrase .operand
  | first {tier : Tier} (operand : Phrase tier.operands)
    : Phrase (.chain tier)
  | joined {tier : Tier} (left : Phrase (.chain tier)) (sign : Token) (op : Operator)
    (right : Phrase tier.operands) (spells : sign.operator? = some op)
    (accepted : tier.accepts op)
    : Phrase (.chain tier)

namespace Phrase

/-- The tokens that a phrase derives, in order. -/
def tokens {level : Level} : Phrase level → List Token
  | number token .. | null token _ | name token _ => [token]
  | group opening inner closing _ _ => opening :: (inner.tokens ++ [closing])
  | first operand => operand.tokens
  | joined left sign _ right _ _ => left.tokens ++ sign :: right.tokens

/-- The first token of a phrase. -/
def head {level : Level} : Phrase level → Token
  | number token .. | null token _ | name token _ => token
  | group opening .. => opening
  | first operand => operand.head
  | joined left .. => left.head

/-- The expression that a phrase stands for. Parentheses leave no node, a chain folds to the
left, and a node has the line of its own token.
-/
def expr {level : Level} : Phrase level → Expr
  | number token value _ _ => .number value token.line
  | null token _ => .null token.line
  | name token _ => .reference token.text token.line
  | group _ inner .. => inner.expr
  | first operand => operand.expr
  | joined left sign op right _ _ => .binary left.expr op right.expr sign.line

/-- How many groups of a phrase are open at once, where it is most. -/
def nesting {level : Level} : Phrase level → Nat
  | number .. | null .. | name .. => 0
  | group _ inner .. => inner.nesting + 1
  | first operand => operand.nesting
  | joined left _ _ right _ _ => max left.nesting right.nesting

end Phrase

/-- A derivation of a statement: an expression, or a declaration
`"let" name "=" additive`.
-/
inductive Clause
  | expression (value : Phrase (.chain .additive))
  | declaration (keyword name equals : Token) (initializer : Phrase (.chain .additive))
    (opens : keyword.kind = .letKeyword) (names : name.kind = .identifier)
    (defines : equals.kind = .equals)

namespace Clause

/-- The tokens that a clause derives, in order. -/
def tokens : Clause → List Token
  | expression value => value.tokens
  | declaration keyword name equals initializer .. =>
      keyword :: name :: equals :: initializer.tokens

/-- The statement that a clause stands for, with the line of its first token. -/
def statement : Clause → Statement
  | expression value => .expression value.expr value.head.line
  | declaration keyword name _ initializer .. =>
      .declaration name.text initializer.expr keyword.line

/-- How many groups of a clause are open at once, where it is most. -/
def nesting : Clause → Nat
  | expression value => value.nesting
  | declaration _ _ _ initializer .. => initializer.nesting

end Clause

/-- A derivation of a program: clauses one after another, with nothing between them. -/
abbrev Derivation := List Clause

namespace Derivation

/-- The tokens that a derivation derives, in order. -/
def tokens (derivation : Derivation) : List Token :=
  derivation.flatMap Clause.tokens

/-- The program that a derivation stands for. -/
def program (derivation : Derivation) : Program :=
  derivation.map Clause.statement

theorem tokens_append (left right : Derivation)
    : tokens (left ++ right) = left.tokens ++ right.tokens :=
  List.flatMap_append

theorem tokens_cons (clause : Clause) (rest : Derivation)
    : tokens (clause :: rest) = clause.tokens ++ rest.tokens :=
  List.flatMap_cons

theorem tokens_singleton (clause : Clause)
    : tokens [clause] = clause.tokens :=
  List.flatMap_singleton _ _

/-- No more groups are open at once than may be. -/
def WithinLimit (derivation : Derivation) : Prop :=
  ∀ clause ∈ derivation, clause.nesting ≤ maxOpenGroups

end Derivation

-----------------------------------------------------------------------------------------
-- Signs that may stand beside a phrase
-----------------------------------------------------------------------------------------

theorem Token.kind_of_operator? {token : Token} {op : Operator}
    (spells : token.operator? = some op)
    : token.kind = .operator := by
  unfold Token.operator? at spells
  split at spells
  · assumption
  · cases spells

theorem Token.kind_ne_endOfInput_of_operator? {token : Token} {op : Operator}
    (spells : token.operator? = some op)
    : token.kind ≠ .endOfInput := by
  simp [kind_of_operator? spells]

theorem Token.operator?_of_kind {token : Token} (other : token.kind ≠ .operator)
    : token.operator? = none := by
  cases spells : token.operator? with
  | none => rfl
  | some op => exact absurd (Token.kind_of_operator? spells) other

/-- The operators of a level: those of its own tier and of the tighter one. -/
def Level.joins : Level → Operator → Bool
  | operand, _ => false
  | chain .multiplicative, op => op.isMultiplicative
  | chain .additive, _ => true

/-- A token extends the phrases of a level if it is an operator of that level: then a phrase
in front of it, or behind it, may be part of a longer one.
-/
def Level.Extends (level : Level) (token : Token) : Prop :=
  ∃ op, token.operator? = some op ∧ level.joins op

namespace Level

theorem not_extends_operand (token : Token)
    : ¬ Level.operand.Extends token := by
  intro extended
  obtain ⟨op, _, joins⟩ := extended
  cases joins

theorem not_extends_of_operator?_eq_none (level : Level) {token : Token}
    (silent : token.operator? = none)
    : ¬ level.Extends token := by
  intro extended
  obtain ⟨op, spells, _⟩ := extended
  rw [silent] at spells
  cases spells

theorem not_extends_of_kind (level : Level) {token : Token} (other : token.kind ≠ .operator)
    : ¬ level.Extends token :=
  level.not_extends_of_operator?_eq_none (Token.operator?_of_kind other)

/-- A chain is extended by the operators of its tier and by what extends its operands. -/
theorem extends_chain_iff (tier : Tier) (token : Token)
    : (Level.chain tier).Extends token
      ↔ (∃ op, token.operator? = some op ∧ tier.accepts op) ∨ tier.operands.Extends token := by
  have splits (op : Operator)
      : (Level.chain tier).joins op
        ↔ tier.accepts op ∨ tier.operands.joins op := by
    cases tier <;> cases op <;> simp [Level.joins, Tier.accepts, Tier.operands,
      Operator.isAdditive, Operator.isMultiplicative]
  simp only [Level.Extends, splits, and_or_left, exists_or]

theorem not_extends_operands {tier : Tier} {token : Token} {op : Operator}
    (spells : token.operator? = some op) (accepted : tier.accepts op)
    : ¬ tier.operands.Extends token := by
  intro extended
  obtain ⟨found, spelled, joins⟩ := extended
  obtain rfl := Option.some.inj (spells.symm.trans spelled)
  cases tier <;> cases op <;> simp_all [Tier.accepts, Tier.operands, Level.joins,
    Operator.isAdditive, Operator.isMultiplicative]

end Level

-----------------------------------------------------------------------------------------
-- The ends of phrases
-----------------------------------------------------------------------------------------

/-- The tokens that a phrase can begin with. -/
def TokenKind.opensPhrase : TokenKind → Bool
  | number | nullKeyword | identifier | openParen => true
  | letKeyword | operator | equals | closeParen | endOfInput => false

/-- The tokens that a phrase can end with. -/
def TokenKind.closesPhrase : TokenKind → Bool
  | number | nullKeyword | identifier | closeParen => true
  | letKeyword | operator | equals | openParen | endOfInput => false

theorem Phrase.opensPhrase_head {level : Level} (phrase : Phrase level)
    : phrase.head.kind.opensPhrase := by
  induction phrase with
  | number token value kind reads => simp only [head, kind, TokenKind.opensPhrase]
  | null token kind => simp only [head, kind, TokenKind.opensPhrase]
  | name token kind => simp only [head, kind, TokenKind.opensPhrase]
  | group opening inner closing opens closes innerIH =>
      simp only [head, opens, TokenKind.opensPhrase]
  | first operand operandIH => exact operandIH
  | joined left sign op right spells accepted leftIH rightIH => exact leftIH

theorem Phrase.tokens_eq_cons {level : Level} (phrase : Phrase level)
    : ∃ more, phrase.tokens = phrase.head :: more := by
  induction phrase with
  | number token | null token | name token => exact ⟨[], rfl⟩
  | group opening inner closing => exact ⟨inner.tokens ++ [closing], rfl⟩
  | first operand operandIH => exact operandIH
  | joined left sign op right spells accepted leftIH rightIH =>
      obtain ⟨more, derived⟩ := leftIH
      exact ⟨more ++ sign :: right.tokens, by simp only [tokens, derived, head]; rfl⟩

/-- A phrase derives some tokens and behind them one that closes phrases, by induction on the
phrase.
-/
theorem Phrase.tokens_eq_concat {level : Level} (phrase : Phrase level)
    : ∃ front last, phrase.tokens = front ++ [last] ∧ last.kind.closesPhrase := by
  induction phrase with
  | number token value kind reads =>
      exact ⟨[], token, rfl, by simp only [kind, TokenKind.closesPhrase]⟩
  | null token kind => exact ⟨[], token, rfl, by simp only [kind, TokenKind.closesPhrase]⟩
  | name token kind => exact ⟨[], token, rfl, by simp only [kind, TokenKind.closesPhrase]⟩
  | group opening inner closing opens closes innerIH =>
      exact ⟨opening :: inner.tokens, closing, rfl,
        by simp only [closes, TokenKind.closesPhrase]⟩
  | first operand operandIH => exact operandIH
  | joined left sign op right spells accepted leftIH rightIH =>
      obtain ⟨front, last, derived, closes⟩ := rightIH
      exact ⟨left.tokens ++ sign :: front, last,
        by simp only [tokens, derived, List.append_assoc, List.cons_append], closes⟩

/-- No phrase derives an end token, by induction on the phrase. -/
theorem Phrase.kind_ne_endOfInput {level : Level} (phrase : Phrase level) {token : Token}
    (member : token ∈ phrase.tokens)
    : token.kind ≠ .endOfInput := by
  induction phrase with
  | number found value kind reads =>
      simp [List.mem_singleton.mp member, kind]
  | null found kind =>
      simp [List.mem_singleton.mp member, kind]
  | name found kind =>
      simp [List.mem_singleton.mp member, kind]
  | group opening inner closing opens closes innerIH =>
      simp only [tokens, List.mem_cons, List.mem_append, List.not_mem_nil, or_false] at member
      rcases member with rfl | inside | rfl
      · simp [opens]
      · exact innerIH inside
      · simp [closes]
  | first operand operandIH => exact operandIH member
  | joined left sign op right spells accepted leftIH rightIH =>
      simp only [tokens, List.mem_append, List.mem_cons] at member
      rcases member with before | rfl | behind
      · exact leftIH before
      · exact Token.kind_ne_endOfInput_of_operator? spells
      · exact rightIH behind

theorem Clause.kind_ne_endOfInput (clause : Clause) {token : Token}
    (member : token ∈ clause.tokens)
    : token.kind ≠ .endOfInput := by
  cases clause with
  | expression value => exact value.kind_ne_endOfInput member
  | declaration keyword name equals initializer opens names defines =>
      simp only [tokens, List.mem_cons] at member
      rcases member with rfl | rfl | rfl | inside
      · simp [opens]
      · simp [names]
      · simp [defines]
      · exact initializer.kind_ne_endOfInput inside

theorem Derivation.kind_ne_endOfInput (derivation : Derivation) {token : Token}
    (member : token ∈ derivation.tokens)
    : token.kind ≠ .endOfInput := by
  obtain ⟨clause, _, inside⟩ := List.mem_flatMap.mp member
  exact clause.kind_ne_endOfInput inside

end Reckoner
