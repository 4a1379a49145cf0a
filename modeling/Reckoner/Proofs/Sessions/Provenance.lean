import Reckoner.Program.Equality
import Reckoner.Proofs.Parsing.Depth
import Reckoner.Proofs.Printing.RoundTrip
import Reckoner.Proofs.Sessions.Faults

/-! What the programs of sources are made of. The parser trusts the scan for the texts of numbers,
names and operators: a source has no token that would let it down, and a program of a source has
nothing in it that only tokens made by hand could bring there.
-/

namespace Reckoner

-----------------------------------------------------------------------------------------
-- Programs that are like themselves
-----------------------------------------------------------------------------------------

/-- A list is equivalent to itself if all its members are, by induction on it. -/
theorem isEqv_self_iff {α : Type} {related : α → α → Bool} {items : List α}
    : items.isEqv items related ↔ ∀ item ∈ items, related item item := by
  induction items with
  | nil => simp
  | cons item items ih => simp only [List.isEqv, Bool.and_eq_true, ih, List.forall_mem_cons]

theorem Binary64.numericallyEqual_self_iff (number : Binary64)
    : number.numericallyEqual number ↔ number ≠ .nan := by
  cases number <;> simp [numericallyEqual]

/-- An expression is like itself exactly if none of its literals is no number. -/
theorem Expr.alike_self_iff (e : Expr)
    : e.alike e ↔ ∀ value line, .number value line ∈ e.postorder → value ≠ .nan := by
  rw [alike, isEqv_self_iff]
  constructor
  · intro alike value line member
    have same := alike _ member
    simp only [Node.alike, Bool.and_eq_true] at same
    exact value.numericallyEqual_self_iff.mp same.1
  · intro numbers node member
    cases node with
    | number value line =>
        simp [Node.alike, value.numericallyEqual_self_iff.mpr (numbers value line member)]
    | null line | reference name line | apply op line => simp [Node.alike]

/-- What a statement evaluates: its expression, or the initializer of its declaration. -/
def Statement.body : Statement → Expr
  | .expression value _ => value
  | .declaration _ initializer _ => initializer

theorem Statement.alike_self_iff (statement : Statement)
    : statement.alike statement ↔ statement.body.alike statement.body := by
  cases statement <;> simp [alike, body]

-----------------------------------------------------------------------------------------
-- What tokens of a source can bring
-----------------------------------------------------------------------------------------

/-- A node as a source can have it: a literal that is whole or, where it has too many digits,
infinite, without a sign in both cases; a name that can be written; and a line of the source.
-/
def Node.IsFromSource : Node → Prop
  | .number value line => (value.IsWhole ∨ value = .infinite false) ∧ 1 ≤ line
  | .null line => 1 ≤ line
  | .reference name line => IsName name ∧ 1 ≤ line
  | .apply _ line => 1 ≤ line

/-- A statement as a source can have it, with its nodes, its line and the name it declares. -/
def Statement.IsFromSource : Statement → Prop
  | .expression value line => 1 ≤ line ∧ ∀ node ∈ value.postorder, node.IsFromSource
  | .declaration name initializer line =>
      IsName name ∧ 1 ≤ line ∧ ∀ node ∈ initializer.postorder, node.IsFromSource

/-- A statement of a source is like itself, since no literal of it is no number. -/
theorem Statement.IsFromSource.alike_self {statement : Statement}
    (written : statement.IsFromSource)
    : statement.alike statement := by
  have nodes : ∀ node ∈ statement.body.postorder, node.IsFromSource := by
    cases statement with
    | expression value line => exact written.2
    | declaration name initializer line => exact written.2.2
  rw [statement.alike_self_iff, Expr.alike_self_iff]
  rintro value line member rfl
  obtain ⟨⟨_, _, finite, _⟩ | overflow, _⟩ := nodes _ member
  · cases finite
  · cases overflow

/-- A run of digits is read as a number, which is whole unless it is infinite. -/
theorem Binary64.exists_ofText?_of_digits {digits : List Char} (nonempty : digits ≠ [])
    (all : ∀ c ∈ digits, c.isDigit)
    : ∃ value, ofText? (String.ofList digits) = some value
        ∧ (value.IsWhole ∨ value = .infinite false) := by
  have reads := ofText?_of_digits nonempty all
  refine ⟨_, reads, ?_⟩
  have rounds : (Decimal.ofDigits digits).nearest false
      = nearest false (Nat.ofDigitChars 10 digits 0 * unitsInOne) 1 :=
    Decimal.nearest_natural _
  rcases nearest_cases false (Nat.ofDigitChars 10 digits 0 * unitsInOne) 1 with
    ⟨exact, finite⟩ | overflow
  · exact .inl (isWhole_of_ofText? nonempty all reads ⟨_, _, exact, rounds.trans finite⟩)
  · exact .inr (rounds.trans overflow)

namespace Token.IsSpelled

variable {token : Token}

theorem exists_value (spelled : token.IsSpelled) (number : token.kind = .number)
    : ∃ value, Binary64.ofText? token.text = some value
        ∧ (value.IsWhole ∨ value = .infinite false) := by
  obtain ⟨digits, nonempty, all, text⟩ := spelled.digits number
  exact text ▸ Binary64.exists_ofText?_of_digits nonempty all

theorem exists_operator (spelled : token.IsSpelled) (sign : token.kind = .operator)
    : ∃ op, token.operator? = some op := by
  rw [Token.isSpelled_iff, sign] at spelled
  obtain ⟨op, chars⟩ := spelled
  have text : token.text = op.symbol :=
    String.toList_inj.mp (chars.trans op.toList_symbol.symm)
  exact ⟨op, by rw [operator?, sign, text, Operator.ofSymbol?_symbol]⟩

end Token.IsSpelled

/-- The tokens of a source are spelled by its characters, apart from the end token. -/
theorem isSpelled_of_scan {source : String} {tokens : List Token}
    (scanned : scan source = .ok tokens)
    : ∀ token ∈ tokens, token.kind = .endOfInput ∨ token.IsSpelled := by
  obtain ⟨spelled, last, spell, rfl⟩ := scan_eq_ok_iff.mp scanned
  refine List.forall_mem_append.mpr ⟨fun token member => ?_, ?_⟩
  · exact .inr (spell.isSpelled token member)
  · exact List.forall_mem_singleton.mpr (.inl rfl)

-----------------------------------------------------------------------------------------
-- Nodes, clauses and programs
-----------------------------------------------------------------------------------------

/-- A node that a token of a source stands for is one that a source can have. -/
theorem Token.StandsFor.isFromSource {token : Token} {node : Node} (stands : token.StandsFor node)
    (spelled : token.IsSpelled) (counted : 1 ≤ token.line)
    : node.IsFromSource := by
  cases node with
  | number value line =>
      obtain ⟨kind, reads, rfl⟩ := stands
      obtain ⟨found, readsTo, possible⟩ := spelled.exists_value kind
      obtain rfl := Option.some.inj (reads.symm.trans readsTo)
      exact ⟨possible, counted⟩
  | null line =>
      obtain ⟨-, rfl⟩ := stands
      exact counted
  | reference name line =>
      obtain ⟨kind, rfl, rfl⟩ := stands
      exact ⟨spelled.isName kind, counted⟩
  | apply op line =>
      obtain ⟨-, rfl⟩ := stands
      exact counted

theorem Phrase.isFromSource {level : Level} (phrase : Phrase level)
    (written : ∀ token ∈ phrase.tokens, token.IsSpelled ∧ 1 ≤ token.line)
    : ∀ node ∈ phrase.expr.postorder, node.IsFromSource := by
  intro node member
  obtain ⟨token, inside, stands⟩ := phrase.exists_standsFor node member
  exact stands.isFromSource (written token inside).1 (written token inside).2

theorem Clause.isFromSource (clause : Clause)
    (written : ∀ token ∈ clause.tokens, token.IsSpelled ∧ 1 ≤ token.line)
    : clause.statement.IsFromSource := by
  cases clause with
  | expression value =>
      obtain ⟨more, tokens⟩ := value.tokens_eq_cons
      have first : value.head ∈ value.tokens := tokens ▸ List.mem_cons_self
      exact ⟨(written _ first).2, value.isFromSource written⟩
  | declaration keyword name equals initializer opens names defines =>
      simp only [tokens, List.forall_mem_cons] at written
      obtain ⟨first, second, -, others⟩ := written
      exact ⟨second.1.isName names, first.2, initializer.isFromSource others⟩

namespace Program

/-- The statements of a program that a source spells are such as a source can have. -/
theorem isFromSource_of_ofSource {source : String} {program : Program}
    (parsed : ofSource source = .ok program)
    : ∀ statement ∈ program, statement.IsFromSource := by
  obtain ⟨derivation, last, spell, rfl, -⟩ := ofSource_eq_ok_iff.mp parsed
  intro statement member
  obtain ⟨clause, inside, rfl⟩ := List.mem_map.mp member
  refine clause.isFromSource fun token found => ?_
  have derived : token ∈ derivation.tokens := List.mem_flatMap.mpr ⟨clause, inside, found⟩
  exact ⟨spell.isSpelled token derived, ((RunsSpell.line_le spell).2 token derived).1⟩

/-- A list without texts that are no numbers is not refused for one: the token that is refused
where the parser comes to it is one of the list.
-/
theorem ofTokens_ne_invalidNumber {tokens : List Token}
    (readable : ∀ token ∈ tokens, token.kind = .number →
      ∃ value, Binary64.ofText? token.text = some value)
    (text : String) (line : Nat)
    : ofTokens tokens ≠ .error (.invalidNumber text line) := by
  intro refused
  obtain ⟨place, c, reached, refuses⟩ := Parser.ofTokens_eq_error_iff_isRefused.mp refused
  obtain ⟨-, kind, unreadable, -⟩ := Parser.Place.refuses_invalidNumber_iff.mp refuses
  have word : c.peek.kind ≠ .endOfInput := by simp [kind]
  have member : c.peek ∈ tokens := by
    obtain ⟨more, rest⟩ := Cursor.rest_of_peek word
    have found : c.peek ∈ c.rest := by simp [rest]
    rw [reached.keepsCount.rest] at found
    exact List.mem_of_mem_drop found
  obtain ⟨value, reads⟩ := readable _ member kind
  simp [unreadable] at reads

/-- What the scan hands on needs no defence. The tokens of a source never make the parser refuse
the text of a number, and each of its signs is that of an operator. And a program that a source
spells has literals that are whole or infinite, and no negative ones, names that can be written,
and lines that count from one, so that it is also like itself.
-/
theorem ofSource_isFromSource (source : String)
    : (∀ tokens, scan source = .ok tokens →
        (∀ text line, ofTokens tokens ≠ .error (.invalidNumber text line))
        ∧ ∀ token ∈ tokens, token.kind = .operator → ∃ op, token.operator? = some op)
      ∧ ∀ program, ofSource source = .ok program →
        (∀ statement ∈ program, statement.IsFromSource) ∧ program.alike program := by
  constructor
  · intro tokens scanned
    have spelled : ∀ token ∈ tokens, token.kind ≠ .endOfInput → token.IsSpelled :=
      fun token member => (isSpelled_of_scan scanned token member).resolve_left
    constructor
    · refine ofTokens_ne_invalidNumber fun token member kind => ?_
      obtain ⟨value, reads, -⟩ := (spelled token member (by simp [kind])).exists_value kind
      exact ⟨value, reads⟩
    · intro token member kind
      exact (spelled token member (by simp [kind])).exists_operator kind
  · intro program parsed
    have written := isFromSource_of_ofSource parsed
    exact ⟨written, isEqv_self_iff.mpr fun statement member => (written _ member).alike_self⟩

/-- A declaration and an expression over two lines. -/
theorem ofSource_isFromSource_two_lines
    : let source := "let x = 0\nx % null"
      let tokens : List Token :=
        [⟨.letKeyword, "let", 1⟩, ⟨.identifier, "x", 1⟩, ⟨.equals, "=", 1⟩, ⟨.number, "0", 1⟩,
          ⟨.identifier, "x", 2⟩, ⟨.operator, "%", 2⟩, ⟨.nullKeyword, "null", 2⟩,
          ⟨.endOfInput, "", 2⟩]
      let program : Program :=
        [.declaration "x" (.number (.signedZero false) 1) 1,
          .expression (.binary (.reference "x" 2) .rem (.null 2) 2) 2]
      scan source = .ok tokens
      ∧ (∀ text line, ofTokens tokens ≠ .error (.invalidNumber text line))
      ∧ ofSource source = .ok program
      ∧ (∀ statement ∈ program, statement.IsFromSource)
      ∧ program.alike program := by
  intro source tokens program
  have scanned : scan source = .ok tokens := by decide +kernel
  have parsed : ofSource source = .ok program := by decide +kernel
  obtain ⟨defenceless, written⟩ := ofSource_isFromSource source
  exact ⟨scanned, (defenceless tokens scanned).1, parsed, written program parsed⟩

end Program
end Reckoner
