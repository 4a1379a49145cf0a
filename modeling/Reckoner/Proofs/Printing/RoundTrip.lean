import Reckoner.Proofs.Printing.Writing
import Reckoner.Proofs.Scanning.Sources

/-! Texts of expressions read back. The text of an expression that can be written is a program
of that expression; and every expression that was read, without infinite literals, can be
written, with no more parentheses than it was read with.
-/

namespace Reckoner

-----------------------------------------------------------------------------------------
-- What is read can be written
-----------------------------------------------------------------------------------------

/-- A token as a source spells it, by a run of its characters. -/
def Token.IsSpelled (token : Token) : Prop :=
  ∃ run, IsRun run ∧ runKind? run = some token.kind ∧ token.text = String.ofList run

theorem Token.isSpelled_iff {token : Token}
    : token.IsSpelled ↔ token.kind.IsSpelledBy token.text.toList := by
  rw [TokenKind.isSpelledBy_iff]
  constructor
  · rintro ⟨run, isRun, kind, text⟩
    rw [text, String.toList_ofList]
    exact ⟨isRun, kind⟩
  · rintro ⟨isRun, kind⟩
    exact ⟨_, isRun, kind, String.ofList_toList.symm⟩

theorem Spells.isSpelled {line last : Nat} {chars : List Char} {tokens : List Token}
    (spell : Spells line chars tokens last)
    : ∀ token ∈ tokens, token.IsSpelled :=
  fun token member => Token.isSpelled_iff.mpr (spell.isSpelledBy token member)

namespace Token.IsSpelled

/-- A number token is a run of digits. -/
theorem digits {token : Token} (spelled : token.IsSpelled) (number : token.kind = .number)
    : ∃ digits,
        digits ≠ []
        ∧ (∀ c ∈ digits, c.isDigit)
        ∧ token.text = String.ofList digits := by
  rw [Token.isSpelled_iff, number] at spelled
  obtain ⟨nonempty, digits⟩ := spelled
  exact ⟨_, nonempty, digits, String.ofList_toList.symm⟩

/-- An identifier token is a name. -/
theorem isName {token : Token} (spelled : token.IsSpelled)
    (identifier : token.kind = .identifier)
    : IsName token.text := by
  rw [Token.isSpelled_iff, identifier] at spelled
  exact isName_iff.mpr spelled

end Token.IsSpelled

namespace Phrase

/-- The tree of a phrase whose tokens stand in a source can be written, if its literals are
finite. Witness: induction on the phrase.
-/
theorem writable_expr {level : Level} (phrase : Phrase level)
    (spelled : ∀ token ∈ phrase.tokens, token.IsSpelled)
    (finite : phrase.expr.HasFiniteLiterals)
    : phrase.expr.Writable := by
  induction phrase with
  | number token value kind reads =>
      obtain ⟨digits, nonempty, all, text⟩ := (spelled token (.head _)).digits kind
      exact Binary64.isWhole_of_ofText? nonempty all (text ▸ reads) finite
  | null token kind => trivial
  | name token kind => exact (spelled token (.head _)).isName kind
  | group opening inner closing opens closes innerIH =>
      refine innerIH (fun token member => spelled token ?_) finite
      exact .tail _ (List.mem_append_left _ member)
  | first operand operandIH => exact operandIH spelled finite
  | joined left sign op right spells accepted leftIH rightIH =>
      refine ⟨leftIH (fun token member => spelled token ?_) finite.1,
        rightIH (fun token member => spelled token ?_) finite.2⟩
      · exact List.mem_append_left _ member
      · exact List.mem_append_right _ (.tail _ member)

/-- The text of a phrase's tree opens no more parentheses at once than the phrase has groups:
where the text needs parentheses, the phrase is at a level that only a group leads to.
Witness: induction on the phrase.
-/
theorem nestingAt_expr_le {level : Level} (phrase : Phrase level)
    : phrase.expr.nestingAt level ≤ phrase.nesting := by
  induction phrase with
  | number token value kind reads => exact Nat.le_refl _
  | null token kind => exact Nat.le_refl _
  | name token kind => exact Nat.le_refl _
  | group opening inner closing opens closes innerIH =>
      have wrapped := Bool.toNat_le (inner.expr.wrapsAt .operand)
      simp only [Expr.nestingAt, Expr.wrapsAt_additive, Bool.toNat_false] at innerIH
      simp only [Expr.nestingAt, expr, nesting]
      omega
  | @first tier operand operandIH =>
      have fewer := operand.expr.toNat_wrapsAt_chain_le tier
      simp only [Expr.nestingAt, expr, nesting] at operandIH ⊢
      omega
  | @joined tier left sign op right spells accepted leftIH rightIH =>
      obtain rfl := (Tier.accepts_iff tier op).mp accepted
      have bare : (Expr.binary left.expr op right.expr sign.line).wrapsAt (.chain op.tier)
          = false := by
        cases op <;> rfl
      rw [expr, Expr.nestingAt, bare, Expr.nesting_binary, nesting]
      simp only [Bool.toNat_false]
      omega

end Phrase

-----------------------------------------------------------------------------------------
-- Reading texts of expressions
-----------------------------------------------------------------------------------------

/-- A text that writes an additive phrase is read as its expression alone, on the first line. -/
theorem Level.Writes.ofSource {source : String} {e : Expr} {groups : Nat}
    (writes : (Level.chain .additive).Writes source.toList e groups)
    (within : groups ≤ maxOpenGroups)
    : Program.ofSource source = .ok [.expression (e.mapLines fun _ => 1) 1] := by
  obtain ⟨phrase, spell, tree, nesting⟩ := writes.spells
  refine Program.ofSource_eq_ok_iff.mpr ⟨[.expression phrase], 1, ?_, ?_, ?_⟩
  · rwa [Derivation.tokens_singleton]
  · have head : phrase.head.line = 1 := by
      obtain ⟨more, tokens⟩ := phrase.tokens_eq_cons
      have bounds := (RunsSpell.line_le spell).2 phrase.head (tokens ▸ .head _)
      omega
    simp only [Derivation.program, List.map_cons, List.map_nil, Clause.statement, tree, head]
  · intro clause member
    rw [List.mem_singleton.mp member]
    exact nesting.trans_le within

namespace Expr

theorem mostOpen_render (e : Expr) (writable : e.Writable)
    : mostOpen 0 e.render.toList = e.nesting := by
  have nests := (e.writes_render writable (.chain .additive)).nests
  simpa [wrapsAt_additive, parenthesize, nestingAt] using nests.mostOpen_eq

/-- The text of an expression that can be written is read as that expression alone, on the
first line.
-/
theorem ofSource_render (e : Expr) (writable : e.Writable) (within : e.nesting ≤ maxOpenGroups)
    : Program.ofSource e.render = .ok [.expression (e.mapLines fun _ => 1) 1] := by
  have writes := e.writes_render writable (.chain .additive)
  simp only [wrapsAt_additive, parenthesize, nestingAt, Bool.toNat_false, Nat.add_zero,
    Bool.false_eq_true, if_false] at writes
  exact writes.ofSource within

/-- An expression that a source is read as can be written, with as many parentheses at once
as may be open.
-/
theorem writable_of_ofSource {source : String} {e : Expr} {line : Nat}
    (read : Program.ofSource source = .ok [.expression e line]) (finite : e.HasFiniteLiterals)
    : e.Writable ∧ e.nesting ≤ maxOpenGroups := by
  obtain ⟨derivation, last, spell, program, within⟩ := Program.ofSource_eq_ok_iff.mp read
  obtain ⟨clause, rfl, statement⟩ := List.map_eq_singleton_iff.mp program
  cases clause with
  | declaration => cases statement
  | expression phrase =>
      obtain ⟨rfl, -⟩ := Statement.expression.inj statement
      rw [Derivation.tokens_singleton] at spell
      refine ⟨phrase.writable_expr spell.isSpelled finite, ?_⟩
      have fewer := phrase.nestingAt_expr_le
      have limit : phrase.nesting ≤ maxOpenGroups := within _ (.head _)
      simp only [nestingAt, wrapsAt_additive, Bool.toNat_false, Nat.add_zero] at fewer
      exact fewer.trans limit

/-- Texts of expressions are read back. An expression whose literals are whole and whose names
can be written is read from its text, if that opens no more parentheses at once than may be
open; and an expression that some source is read as, with finite literals, has such a text.
-/
theorem render_reads_back
    : (∀ e : Expr, e.Writable → mostOpen 0 e.render.toList ≤ maxOpenGroups →
        Program.ofSource e.render = .ok [.expression (e.mapLines fun _ => 1) 1])
      ∧ (∀ (source : String) (e : Expr) (line : Nat),
        Program.ofSource source = .ok [.expression e line] → e.HasFiniteLiterals →
          mostOpen 0 e.render.toList ≤ maxOpenGroups
          ∧ Program.ofSource e.render = .ok [.expression (e.mapLines fun _ => 1) 1]) := by
  constructor
  · intro e writable within
    rw [mostOpen_render e writable] at within
    exact ofSource_render e writable within
  · intro source e line read finite
    obtain ⟨writable, within⟩ := writable_of_ofSource read finite
    rw [mostOpen_render e writable]
    exact ⟨within, ofSource_render e writable within⟩

/-- A sum as a factor is written in parentheses and read back, and so is what was read. -/
theorem render_reads_back_sum_as_factor
    : let e : Expr :=
        .binary (.binary (.number (.signedZero false) 1) .add (.reference "x" 1) 1) .mul
          (.null 1) 1
      e.render = "(0 + x) * null"
      ∧ Program.ofSource e.render = .ok [.expression e 1]
      ∧ Program.ofSource "((0)+x)\n* null"
        = .ok
            [.expression
              (.binary (.binary (.number (.signedZero false) 1) .add (.reference "x" 1) 1) .mul
                (.null 2) 2)
              1]
      ∧ mostOpen 0 e.render.toList ≤ maxOpenGroups := by
  intro e
  have name : IsName "x" := ⟨by decide, List.all_eq_true.mp (by decide), by decide, by decide⟩
  have zero : (Binary64.signedZero false).IsWhole :=
    ⟨0, representable_zero, rfl, Nat.dvd_zero _⟩
  have text : e.render = "(0 + x) * null" := by decide +kernel
  have opens : mostOpen 0 e.render.toList ≤ maxOpenGroups := by
    rw [text]
    decide
  have other : Program.ofSource "((0)+x)\n* null"
      = .ok
          [.expression
            (.binary (.binary (.number (.signedZero false) 1) .add (.reference "x" 1) 1) .mul
              (.null 2) 2)
            1] := by
    decide +kernel
  have finite : (Binary64.signedZero false).IsFinite := ⟨false, 0, representable_zero, rfl⟩
  refine ⟨text, render_reads_back.1 e ⟨⟨zero, name⟩, trivial⟩ opens, other, ?_⟩
  exact (render_reads_back.2 _ _ _ other ⟨⟨finite, trivial⟩, trivial⟩).1

end Expr
end Reckoner
