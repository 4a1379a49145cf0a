import Reckoner.Proofs.Printing.Rendering
import Reckoner.Proofs.Scanning.Lexeme

/-! What the text of an expression derives. Wherever the grammar wants a phrase of some level,
the text with its parentheses spells one, whose tree is the expression itself.
-/

namespace Reckoner

-----------------------------------------------------------------------------------------
-- Parentheses by levels
-----------------------------------------------------------------------------------------

/-- The tier of an operator. -/
def Operator.tier (op : Operator) : Tier :=
  if op.isAdditive then .additive else .multiplicative

theorem Operator.tier_eq_additive (op : Operator) (additive : op.isAdditive)
    : op.tier = .additive :=
  if_pos additive

theorem Operator.tier_eq_multiplicative (op : Operator) (multiplicative : op.isAdditive = false)
    : op.tier = .multiplicative := by
  rw [tier, multiplicative]
  rfl

theorem Tier.accepts_iff (tier : Tier) (op : Operator)
    : tier.accepts op ↔ tier = op.tier := by
  cases tier <;> cases op <;> decide

/-- Whether an expression stands in parentheses where a phrase of a level is wanted: if its
operator is none of that level.
-/
def Expr.wrapsAt (level : Level) : Expr → Bool
  | binary _ op _ _ => !level.joins op
  | number .. | null _ | reference .. => false

/-- How many parentheses an expression opens at once where a phrase of a level is wanted. -/
def Expr.nestingAt (level : Level) (e : Expr) : Nat :=
  e.nesting + (e.wrapsAt level).toNat

namespace Expr

theorem wrapsLeft_eq (op : Operator) (left : Expr)
    : left.wrapsLeft op = left.wrapsAt (.chain op.tier) := by
  cases left with
  | number value line | null line | reference name line => rfl
  | binary inside inner outside line => cases op <;> cases inner <;> rfl

theorem wrapsRight_eq (op : Operator) (right : Expr)
    : right.wrapsRight op = right.wrapsAt op.tier.operands := by
  cases right with
  | number value line | null line | reference name line => rfl
  | binary inside inner outside line => cases op <;> cases inner <;> rfl

theorem wrapsAt_additive (e : Expr)
    : e.wrapsAt (.chain .additive) = false := by
  cases e <;> rfl

/-- Between the operators of a tier more expressions stand in parentheses. -/
theorem toNat_wrapsAt_chain_le (tier : Tier) (e : Expr)
    : (e.wrapsAt (.chain tier)).toNat ≤ (e.wrapsAt tier.operands).toNat := by
  cases e with
  | number value line | null line | reference name line => exact Nat.le_refl _
  | binary left op right line =>
      cases tier <;> cases op <;>
        simp [wrapsAt, Level.joins, Tier.operands, Operator.isMultiplicative]

/-- An expression opens as many parentheses as its operands where they stand. -/
theorem nesting_binary (left : Expr) (op : Operator) (right : Expr) (line : Nat)
    : (binary left op right line).nesting
      = max (left.nestingAt (.chain op.tier)) (right.nestingAt op.tier.operands) := by
  rw [nesting, wrapsLeft_eq, wrapsRight_eq]
  rfl

end Expr

-----------------------------------------------------------------------------------------
-- Texts that spell phrases
-----------------------------------------------------------------------------------------

/-- A text spells a phrase of a level, on the first line, whose tree is an expression up to
lines, and opens as many parentheses at once as the phrase opens groups.
-/
structure Level.Writes (level : Level) (text : List Char) (e : Expr) (groups : Nat) : Prop where
  spells : ∃ phrase : Phrase level,
    Spells 1 text phrase.tokens 1
    ∧ phrase.expr = e.mapLines (fun _ => 1)
    ∧ phrase.nesting = groups
  nests : Nests text groups

theorem spells_space
    : Spells 1 [' '] [] 1 :=
  Spells.layout (by decide) (by decide) 1

/-- A sign is a token of its own. -/
theorem spells_sign (sign : Char) {kind : TokenKind} (alone : standsAlone sign)
    (token : signKind? sign = some kind)
    : Spells 1 [sign] [{ kind := kind, text := String.ofList [sign], line := 1 }] 1 := by
  refine Spells.run (.single alone) ?_ 1
  rwa [runKind?_singleton alone]

/-- A name is what an identifier is spelled as. -/
theorem isName_iff {name : String}
    : IsName name ↔ TokenKind.identifier.IsSpelledBy name.toList := by
  have differs (word : String) : name.toList ≠ word.toList ↔ name ≠ word :=
    not_congr String.toList_inj
  constructor
  · intro isName
    exact ⟨by simpa using isName.nonempty, isName.letters, (differs "let").mpr isName.notLet,
      (differs "null").mpr isName.notNull⟩
  · intro spelled
    obtain ⟨nonempty, letters, notLet, notNull⟩ := spelled
    exact ⟨by simpa using nonempty, letters, (differs "let").mp notLet,
      (differs "null").mp notNull⟩

/-- A run that is no sign opens no parentheses. -/
theorem Nests.of_word {run : List Char} (word : ∀ c ∈ run, ¬ standsAlone c)
    : Nests run 0 := by
  refine .plain fun c member => ⟨?_, ?_⟩ <;>
    · intro same
      exact word c member (same ▸ by decide)

namespace Level.Writes

variable {level : Level} {text leftText rightText : List Char} {e left right : Expr}
  {groups leftGroups rightGroups : Nat}

/-- A run of digits is the number that it is read as. -/
theorem numeral {digits : String} {value : Binary64}
    (spelled : TokenKind.number.IsSpelledBy digits.toList)
    (reads : Binary64.ofText? digits = some value) (line : Nat)
    : Writes .operand digits.toList (.number value line) 0 := by
  refine ⟨⟨.number { kind := .number, text := digits, line := 1 } value rfl reads,
    spelled.spells 1, rfl, rfl⟩, Nests.of_word fun c member => ?_⟩
  simp [standsAlone, spelled.2 c member]

theorem number {value : Binary64} (whole : value.IsWhole) (line : Nat)
    : Writes .operand value.text.toList (.number value line) 0 := by
  obtain ⟨nonempty, digits, reads⟩ := whole.text
  exact numeral ⟨nonempty, digits⟩ reads line

theorem null (line : Nat)
    : Writes .operand "null".toList (.null line) 0 := by
  have letters : ∀ c ∈ "null".toList, Text.isLetter c := List.all_eq_true.mp (by decide)
  have spelled : TokenKind.nullKeyword.IsSpelledBy "null".toList := rfl
  refine ⟨⟨.null { kind := .nullKeyword, text := "null", line := 1 } rfl, spelled.spells 1, rfl,
    rfl⟩, Nests.of_word fun c member => ?_⟩
  simp [standsAlone, letters c member]

theorem reference {name : String} (isName : IsName name) (line : Nat)
    : Writes .operand name.toList (.reference name line) 0 := by
  have spelled := isName_iff.mp isName
  refine ⟨⟨.name { kind := .identifier, text := name, line := 1 } rfl, spelled.spells 1, rfl,
    rfl⟩, Nests.of_word fun c member => ?_⟩
  simp [standsAlone, isName.letters c member]

theorem first {tier : Tier} (operand : tier.operands.Writes text e groups)
    : (Level.chain tier).Writes text e groups := by
  obtain ⟨⟨phrase, spell, tree, nesting⟩, nests⟩ := operand
  exact ⟨⟨.first phrase, spell, tree, nesting⟩, nests⟩

/-- Any expression stands where an additive phrase is wanted. -/
theorem additive {tier : Tier} (chain : (Level.chain tier).Writes text e groups)
    : (Level.chain .additive).Writes text e groups := by
  cases tier with
  | additive => exact chain
  | multiplicative =>
      have operand : Tier.additive.operands.Writes text e groups := chain
      exact operand.first

/-- An operand stands wherever a phrase is wanted. -/
theorem of_operand (operand : Writes .operand text e groups)
    : level.Writes text e groups := by
  have multiplicative : (Level.chain .multiplicative).Writes text e groups := by
    have operand : Tier.multiplicative.operands.Writes text e groups := operand
    exact operand.first
  cases level with
  | operand => exact operand
  | chain tier =>
      cases tier with
      | multiplicative => exact multiplicative
      | additive => exact multiplicative.additive

/-- In parentheses, an expression is an operand. -/
theorem group (inner : Writes (.chain .additive) text e groups)
    : Writes .operand ('(' :: (text ++ [')'])) e (groups + 1) := by
  obtain ⟨⟨phrase, spell, tree, nesting⟩, nests⟩ := inner
  refine ⟨⟨.group { kind := .openParen, text := "(", line := 1 } phrase
    { kind := .closeParen, text := ")", line := 1 } rfl rfl, ?_, tree, ?_⟩, nests.group⟩
  · have opening := spells_sign '(' (by decide) rfl
    have closing := spells_sign ')' (by decide) rfl
    exact opening.cons (by decide) (spell.append_of_head (by decide) closing)
  · rw [Phrase.nesting, nesting]

/-- Two operands with an operator between them are an expression of the operator's tier. -/
theorem joined {op : Operator} (line : Nat)
    (before : (Level.chain op.tier).Writes leftText left leftGroups)
    (behind : op.tier.operands.Writes rightText right rightGroups)
    : (Level.chain op.tier).Writes
        (leftText ++ ' ' :: op.character :: ' ' :: rightText)
        (.binary left op right line) (max leftGroups rightGroups) := by
  obtain ⟨⟨leftPhrase, leftSpell, leftTree, leftNesting⟩, leftNests⟩ := before
  obtain ⟨⟨rightPhrase, rightSpell, rightTree, rightNesting⟩, rightNests⟩ := behind
  let sign : Token := { kind := .operator, text := op.symbol, line := 1 }
  have spells : sign.operator? = some op := Operator.ofSymbol?_symbol op
  have accepted : op.tier.accepts op := (Tier.accepts_iff _ _).mpr rfl
  have alone : standsAlone ' ' := by decide
  have signSpell : Spells 1 [op.character] [sign] 1 :=
    spells_sign op.character op.standsAlone_character op.signKind?_character
  refine ⟨⟨.joined leftPhrase sign op rightPhrase spells accepted, ?_, ?_, ?_⟩, ?_⟩
  · exact leftSpell.append_of_head alone
      (spells_space.cons alone
        (signSpell.cons op.standsAlone_character (spells_space.cons alone rightSpell)))
  · simp only [Phrase.expr, Expr.mapLines, leftTree, rightTree, sign]
  · simp only [Phrase.nesting, leftNesting, rightNesting]
  · have space : Nests [' '] 0 := Nests.single (by decide)
    have signNests : Nests [op.character] 0 := Nests.single (by cases op <;> decide)
    have whole := leftNests.append (space.append (signNests.append (space.append rightNests)))
    simpa using whole

/-- An expression of an operator's tier stands, in parentheses if it needs them, where a
phrase of any level is wanted.
-/
theorem parenthesized {op : Operator} {line : Nat} {text : String}
    (own : (Level.chain op.tier).Writes text.toList (.binary left op right line) groups)
    : level.Writes
        (parenthesize ((Expr.binary left op right line).wrapsAt level) text).toList
        (.binary left op right line)
        (groups + ((Expr.binary left op right line).wrapsAt level).toNat) := by
  cases wrapped : (Expr.binary left op right line).wrapsAt level with
  | true =>
      have operand := own.additive.group
      simpa [parenthesize] using operand.of_operand
  | false =>
      cases level with
      | operand => cases wrapped
      | chain tier =>
          cases tier with
          | additive => exact own.additive
          | multiplicative =>
              cases op with
              | add | sub => cases wrapped
              | mul | div | rem => exact own

end Level.Writes

theorem Operator.toList_symbol (op : Operator)
    : op.symbol.toList = [op.character] := by
  cases op <;> rfl

/-- The text of an expression, in parentheses where they are needed, spells a phrase of the
wanted level with the expression's tree.
Witness: induction on the expression, for any level. An operator is joined at the level of
its own tier, and from there goes up to the wanted level or into parentheses.
-/
theorem Expr.writes_render (e : Expr) (writable : e.Writable) (level : Level)
    : level.Writes (parenthesize (e.wrapsAt level) e.render).toList e (e.nestingAt level) := by
  induction e generalizing level with
  | number value line => exact (Level.Writes.number writable line).of_operand
  | null line => exact (Level.Writes.null line).of_operand
  | reference name line => exact (Level.Writes.reference writable line).of_operand
  | binary left op right line leftIH rightIH =>
      have own := Level.Writes.joined line (leftIH writable.1 (.chain op.tier))
        (rightIH writable.2 op.tier.operands)
      rw [← nesting_binary left op right line] at own
      apply Level.Writes.parenthesized
      simpa [render, wrapsLeft_eq, wrapsRight_eq, Operator.toList_symbol] using own

end Reckoner
