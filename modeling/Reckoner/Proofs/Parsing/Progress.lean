import Mathlib.Data.List.Basic
import Reckoner.Proofs.Parsing.Locality
import Reckoner.Proofs.Parsing.Viability

/-! Where cursors can be. Whatever is done with a cursor, and whether it succeeds or not, it moves
over tokens that are not end tokens, so it stays in front of the first one of these, and no more
groups than may be are open. A parser that succeeds has moved, which is what ends the repetition
of statements.
-/

namespace Reckoner

-----------------------------------------------------------------------------------------
-- Moves
-----------------------------------------------------------------------------------------

/-- The index of the first end token of a list, or its length if there is none. -/
def Token.endIndex (tokens : List Token) : Nat :=
  tokens.findIdx fun token => token.kind = .endOfInput

namespace Cursor

/-- The cursor where a parser stops, success or not. -/
def after {α : Type} (p : Parser α) (c : Cursor) : Cursor :=
  match p.run c with
  | .ok _ c' | .error _ c' => c'

/-- A cursor moves to another one over tokens none of which is an end token, whatever groups are
opened or closed on the way.
-/
def MovesTo (c c' : Cursor) : Prop :=
  ∃ read,
    c.rest = read ++ c'.rest
    ∧ c'.position = c.position + read.length
    ∧ ∀ token ∈ read, token.kind ≠ .endOfInput

namespace MovesTo

variable {c middle c' : Cursor}

theorem of_rest (rest : c'.rest = c.rest) (position : c'.position = c.position)
    : c.MovesTo c' :=
  ⟨[], rest.symm, position, by simp⟩

theorem refl (c : Cursor)
    : c.MovesTo c :=
  of_rest rfl rfl

/-- Moves compose, over the tokens of one behind those of the other. -/
theorem trans (first : c.MovesTo middle) (second : middle.MovesTo c')
    : c.MovesTo c' := by
  obtain ⟨read, rest, position, words⟩ := first
  obtain ⟨read', rest', position', words'⟩ := second
  refine ⟨read ++ read', by simp [rest, rest'], by simp [position, position', Nat.add_assoc], ?_⟩
  intro token member
  rcases List.mem_append.mp member with before | behind
  · exact words token before
  · exact words' token behind

theorem position_le (moves : c.MovesTo c')
    : c.position ≤ c'.position := by
  obtain ⟨read, -, position, -⟩ := moves
  omega

end MovesTo

theorem Reads.movesTo {c c' : Cursor} {read : List Token} (reads : c.Reads read c')
    (words : ∀ token ∈ read, token.kind ≠ .endOfInput)
    : c.MovesTo c' :=
  ⟨read, reads.rest, reads.position, words⟩

/-- The next token is passed unless it is an end token. -/
theorem movesTo_next (c : Cursor)
    : c.MovesTo c.next := by
  by_cases ended : c.peek.kind = .endOfInput
  · have stays : c.next = c := by
      obtain ⟨rest, position, depth⟩ := c
      cases rest with
      | nil => rfl
      | cons token rest => exact if_pos ended
    simpa only [stays] using MovesTo.refl c
  · exact (reads_next ended).movesTo (by simpa using ended)

/-- No token in front of the rest of a list is an end token, so the first one is in the rest. -/
theorem endIndex_append {read rest : List Token}
    (words : ∀ token ∈ read, token.kind ≠ .endOfInput)
    : Token.endIndex (read ++ rest) = read.length + Token.endIndex rest := by
  have none : read.findIdx (fun token => decide (token.kind = .endOfInput)) = read.length :=
    List.findIdx_eq_length_of_false (by simpa using words)
  simp [Token.endIndex, List.findIdx_append, none, Nat.add_comm]

theorem atEnd_iff_endIndex_rest (c : Cursor)
    : c.atEnd ↔ Token.endIndex c.rest = 0 := by
  cases rest : c.rest with
  | nil => simp [atEnd, peek, rest, Token.endIndex, Token.endOfInput]
  | cons token more =>
      by_cases ended : token.kind = .endOfInput <;>
        simp [atEnd, peek, rest, Token.endIndex, List.findIdx_cons, ended]

/-- A cursor that moves from the start of a list has passed as many of its tokens as it says. -/
theorem MovesTo.rest_eq_drop {tokens : List Token} {c : Cursor}
    (moves : (start tokens).MovesTo c)
    : c.rest = tokens.drop c.position := by
  obtain ⟨read, rest, position, -⟩ := moves
  have split : tokens = read ++ c.rest := rest
  have passed : c.position = read.length := position.trans (Nat.zero_add _)
  rw [passed, split, List.drop_left]

/-- It is at most at the first end token, and is there exactly if an end token is next. -/
theorem MovesTo.position_le_endIndex {tokens : List Token} {c : Cursor}
    (moves : (start tokens).MovesTo c)
    : c.position ≤ Token.endIndex tokens ∧ (c.atEnd ↔ c.position = Token.endIndex tokens) := by
  obtain ⟨read, rest, position, words⟩ := moves
  have passed : c.position = read.length := position.trans (Nat.zero_add _)
  have index : Token.endIndex tokens = read.length + Token.endIndex c.rest := by
    rw [← endIndex_append words, ← rest]
    rfl
  rw [index, passed, atEnd_iff_endIndex_rest]
  omega

end Cursor

-----------------------------------------------------------------------------------------
-- Parsers
-----------------------------------------------------------------------------------------

namespace Parser

/-- A parser goes on if it moves the cursor, success or not. When it succeeds, it has closed the
groups that it opened. When it fails, some may be left open, but no more than may be.
-/
structure GoesOn {α : Type} (p : Parser α) : Prop where
  ok
    : ∀ ⦃c c' : Cursor⦄ ⦃a : α⦄, p.run c = .ok a c' → c.MovesTo c' ∧ c'.depth = c.depth
  error
    : ∀ ⦃c stopped : Cursor⦄ ⦃error : SyntaxError⦄,
        p.run c = .error error stopped
        → c.MovesTo stopped
          ∧ c.depth ≤ stopped.depth
          ∧ stopped.depth ≤ max c.depth maxOpenGroups

namespace GoesOn

variable {α β : Type}

theorem pure (a : α)
    : GoesOn (pure a) := by
  constructor
  · intro c c' b run
    cases run
    exact ⟨.refl c, rfl⟩
  · intro c stopped error run
    cases run

theorem throw (error : SyntaxError)
    : GoesOn (throw error : Parser α) := by
  constructor
  · intro c c' a run
    cases run
  · intro c stopped error run
    cases run
    exact ⟨.refl c, le_rfl, le_max_left _ _⟩

theorem get
    : GoesOn get := by
  constructor
  · intro c c' a run
    cases run
    exact ⟨.refl c, rfl⟩
  · intro c stopped error run
    cases run

/-- Parsers that go on do so one after the other. -/
theorem bind {p : Parser α} {f : α → Parser β} (first : p.GoesOn) (second : ∀ a, (f a).GoesOn)
    : (p >>= f).GoesOn := by
  constructor
  · intro c c' b run
    obtain ⟨a, middle, before, behind⟩ := run_bind_eq_ok_iff.mp run
    obtain ⟨moves, depth⟩ := first.ok before
    obtain ⟨moves', depth'⟩ := (second a).ok behind
    exact ⟨moves.trans moves', depth'.trans depth⟩
  · intro c stopped error run
    rcases run_bind_eq_error_iff.mp run with failed | ⟨a, middle, before, failed⟩
    · exact first.error failed
    · obtain ⟨moves, depth⟩ := first.ok before
      obtain ⟨moves', deeper, limit⟩ := (second a).error failed
      exact ⟨moves.trans moves', depth ▸ deeper, depth ▸ limit⟩

theorem peek
    : peek.GoesOn :=
  get.bind fun c => pure c.peek

theorem advance
    : advance.GoesOn := by
  constructor
  · intro c c' token run
    cases run
    exact ⟨c.movesTo_next, c.depth_next⟩
  · intro c stopped error run
    cases run

theorem expect (kind : TokenKind) (context : String)
    : (expect kind context).GoesOn := by
  refine peek.bind fun token => ?_
  split
  · exact advance
  · exact throw _

/-- A group goes on as what stands inside does: one more group is open there, which may be left
open only if something fails.
-/
theorem groupWith {inner : Parser Expr} (inside : inner.GoesOn) (line : Nat)
    : (groupWith inner line).GoesOn := by
  constructor
  · intro c c' e run
    obtain ⟨room, middle, read, closes, rfl⟩ := run_groupWith_eq_ok_iff.mp run
    obtain ⟨moves, depth⟩ := inside.ok read
    have enters : c.MovesTo { c with depth := c.depth + 1 } := .of_rest rfl rfl
    have leaves : middle.next.MovesTo { middle.next with depth := middle.next.depth - 1 } :=
      .of_rest rfl rfl
    refine ⟨enters.trans (moves.trans (middle.movesTo_next.trans leaves)), ?_⟩
    simp [depth, middle.depth_next]
  · intro c stopped error run
    rcases run_groupWith_eq_error_iff.mp run
      with failed | ⟨u, opened, entered, failed | ⟨e, middle, read, failed⟩⟩
    · rw [run_enterGroup] at failed
      split at failed
      · cases failed
        exact ⟨.refl c, le_rfl, le_max_left _ _⟩
      · cases failed
    all_goals
      obtain ⟨room, rfl⟩ := run_enterGroup_eq_ok_iff.mp entered
      have enters : c.MovesTo { c with depth := c.depth + 1 } := .of_rest rfl rfl
    · obtain ⟨moves, deeper, limit⟩ := inside.error failed
      refine ⟨enters.trans moves, ?_, ?_⟩ <;> simp only at deeper limit <;> omega
    · obtain ⟨moves, depth⟩ := inside.ok read
      obtain ⟨other, rfl, rfl⟩ := run_expect_eq_error_iff.mp failed
      refine ⟨enters.trans moves, ?_, ?_⟩ <;> simp only at depth <;> omega

theorem primaryWith {inner : Parser Expr} (inside : inner.GoesOn)
    : (primaryWith inner).GoesOn := by
  refine peek.bind fun token => ?_
  obtain ⟨kind, text, line⟩ := token
  cases kind with
  | number =>
      refine advance.bind fun _ => ?_
      cases Binary64.ofText? text with
      | some value => exact pure _
      | none => exact throw _
  | nullKeyword | identifier => exact advance.bind fun _ => pure _
  | openParen => exact advance.bind fun _ => inside.groupWith line
  | letKeyword | operator | equals | closeParen | endOfInput => exact throw _

/-- A chain goes on as its operands do, by induction on the bound. -/
theorem chainFrom {operand : Parser Expr} (operands : operand.GoesOn)
    (accepts : Operator → Bool) (bound : List Token) (left : Expr)
    : (chainFrom accepts operand bound left).GoesOn := by
  induction bound generalizing left with
  | nil => exact pure left
  | cons token bound ih =>
      refine peek.bind fun sign => ?_
      cases sign.operator? with
      | none => exact pure left
      | some op =>
          cases accepted : accepts op with
          | false => simpa [accepted] using pure left
          | true =>
              simp only [accepted, if_true]
              exact advance.bind fun _ => operands.bind fun right => ih _

theorem chain {operand : Parser Expr} (operands : operand.GoesOn) (accepts : Operator → Bool)
    : (chain accepts operand).GoesOn :=
  operands.bind fun left => get.bind fun c => operands.chainFrom accepts c.rest left

/-- Expressions within any number of groups go on, by induction on the number. -/
theorem expressionWithin (groups : Nat)
    : (expressionWithin groups).GoesOn := by
  induction groups with
  | zero => exact peek.bind fun token => throw _
  | succ groups ih => exact (ih.primaryWith.chain _).chain _

theorem expression
    : expression.GoesOn :=
  get.bind fun _ => expressionWithin _

theorem declaration
    : declaration.GoesOn :=
  advance.bind fun _ => (expect .identifier _).bind fun _ =>
    (expect .equals _).bind fun _ => expression.bind fun _ => pure _

theorem statement
    : statement.GoesOn := by
  refine peek.bind fun first => ?_
  split
  · exact declaration
  · exact expression.bind fun _ => pure _

/-- The parser of every rule goes on. -/
theorem rule (rule : Rule)
    : rule.parser.GoesOn := by
  cases rule with
  | primary => exact expression.primaryWith
  | multiplicative => exact expression.primaryWith.chain _
  | additive => exact (expression.primaryWith.chain _).chain _
  | expression => exact expression
  | statement => exact statement

/-- Success or not, the cursor has moved, and no more groups than may be have become open. -/
theorem after {p : Parser α} (goesOn : p.GoesOn) (c : Cursor)
    : c.MovesTo (c.after p) ∧ (c.after p).depth ≤ max c.depth maxOpenGroups := by
  unfold Cursor.after
  cases run : p.run c with
  | ok a c' =>
      obtain ⟨moves, depth⟩ := goesOn.ok run
      exact ⟨moves, depth.le.trans (le_max_left _ _)⟩
  | error error stopped =>
      obtain ⟨moves, -, limit⟩ := goesOn.error run
      exact ⟨moves, limit⟩

end GoesOn

variable {tokens : List Token} {c c' : Cursor}

/-- A parser of a rule that succeeds has passed a token at least. -/
theorem Rule.position_lt {rule : Rule} {result : rule.Result}
    (run : rule.parser.run c = .ok result c')
    : c.position < c'.position := by
  obtain ⟨read, takes⟩ := Rule.exists_takes run
  have some := List.length_pos_iff.mpr takes.nonempty
  have position := takes.reads.position
  omega

-----------------------------------------------------------------------------------------
-- Statements
-----------------------------------------------------------------------------------------

/-- Statements are parsed between two cursors in rounds, one statement in each, as long as the end
is not next. Nothing bounds the number of rounds.
-/
inductive Rounds : Cursor → Program → Cursor → Prop
  | none (c : Cursor)
    : Rounds c [] c
  | next {c middle c' : Cursor} {s : Statement} {program : Program} (inside : ¬ c.atEnd)
    (run : statement.run c = .ok s middle) (rest : Rounds middle program c')
    : Rounds c (s :: program) c'

/-- Each round passes a token at least, by induction on the rounds. -/
theorem Rounds.moves {program : Program} (rounds : Rounds c program c')
    : c.MovesTo c' ∧ c.position + program.length ≤ c'.position := by
  induction rounds with
  | none c => exact ⟨.refl c, le_rfl⟩
  | next inside run rest ih =>
      obtain ⟨moves, passed⟩ := ih
      have further := @Rule.position_lt _ _ .statement _ run
      refine ⟨(GoesOn.statement.ok run).1.trans moves, ?_⟩
      rw [List.length_cons]
      omega

/-- From every cursor the rounds come to an end: either the end of the tokens is next, or a
statement fails, and parsing all statements comes to the same. Witness: induction on the tokens
left, of which each round takes some.
-/
theorem exists_rounds (c : Cursor)
    : ∃ program c', Rounds c program c'
      ∧ (c'.atEnd ∧ (∀ parsed, (statements parsed).run c = .ok (parsed.reverse ++ program) c')
        ∨ ¬ c'.atEnd
          ∧ ∃ error stopped, statement.run c' = .error error stopped
            ∧ ∀ parsed, (statements parsed).run c = .error error stopped) := by
  induction size : c.rest.length using Nat.strongRecOn generalizing c with
  | _ size ih =>
      by_cases atEnd : c.atEnd
      · refine ⟨[], c, .none c, .inl ⟨atEnd, fun parsed => ?_⟩⟩
        rw [run_statements, if_pos atEnd, List.append_nil]
      have goesOn (parsed : Program)
          : (statements parsed).run c = (do statements ((← statement) :: parsed)).run c := by
        rw [run_statements, if_neg atEnd]
      cases first : statement.run c with
      | error error stopped =>
          refine ⟨[], c, .none c, .inr ⟨atEnd, error, stopped, first, fun parsed => ?_⟩⟩
          exact (goesOn parsed).trans (run_bind_eq_error_iff.mpr (.inl first))
      | ok s middle =>
          obtain ⟨clause, -, stands⟩ := run_statement_eq_ok_iff.mp first
          have fewer := clause.length_rest_lt stands.reads
          obtain ⟨program, c', rounds, ended⟩ := ih middle.rest.length (by omega) middle rfl
          refine ⟨s :: program, c', .next atEnd first rounds, ended.imp ?_ ?_⟩
          · intro succeeded
            refine ⟨succeeded.1, fun parsed => (goesOn parsed).trans ?_⟩
            have behind := succeeded.2 (s :: parsed)
            rw [List.reverse_cons, List.append_assoc, List.singleton_append] at behind
            exact run_bind_eq_ok_iff.mpr ⟨s, middle, first, behind⟩
          · intro failed
            obtain ⟨inside, error, stopped, last, behind⟩ := failed
            refine ⟨inside, error, stopped, last, fun parsed => (goesOn parsed).trans ?_⟩
            exact run_bind_eq_error_iff.mpr (.inr ⟨s, middle, first, behind (s :: parsed)⟩)

end Parser

-----------------------------------------------------------------------------------------
-- Everything that can be done
-----------------------------------------------------------------------------------------

namespace Cursor

/-- What can be done with a cursor. -/
inductive Operation
  | peek
  | advance
  | expect (kind : TokenKind) (context : String)
  | enterGroup (line : Nat)
  | leaveGroup
  | parse (rule : Parser.Rule)
  | declaration

/-- The cursor behind an operation, success or not. -/
def Operation.perform : Operation → Cursor → Cursor
  | peek => after Parser.peek
  | advance => after Parser.advance
  | expect kind context => after (Parser.expect kind context)
  | enterGroup line => after (Parser.enterGroup line)
  | leaveGroup => after Parser.leaveGroup
  | parse rule => after rule.parser
  | declaration => after Parser.declaration

/-- The cursor behind one operation after another. -/
def performAll (operations : List Operation) (c : Cursor) : Cursor :=
  operations.foldl (fun c operation => operation.perform c) c

/-- Every operation moves the cursor and keeps to the limit on groups. -/
theorem Operation.movesTo_perform (operation : Operation) (c : Cursor)
    : c.MovesTo (operation.perform c)
      ∧ (operation.perform c).depth ≤ max c.depth maxOpenGroups := by
  cases operation with
  | peek => exact Parser.GoesOn.peek.after c
  | advance => exact Parser.GoesOn.advance.after c
  | expect kind context => exact (Parser.GoesOn.expect kind context).after c
  | enterGroup line =>
      have run := Parser.run_enterGroup line c
      by_cases full : maxOpenGroups ≤ c.depth
      · have stays : perform (.enterGroup line) c = c := by simp [perform, after, run, full]
        simpa only [stays] using And.intro (MovesTo.refl c) (le_max_left c.depth maxOpenGroups)
      · have enters : perform (.enterGroup line) c = { c with depth := c.depth + 1 } := by
          simp [perform, after, run, full]
        simp only [enters]
        exact ⟨.of_rest rfl rfl, Nat.le_trans (Nat.lt_of_not_le full) (le_max_right _ _)⟩
  | leaveGroup => exact ⟨.of_rest rfl rfl, (Nat.sub_le _ _).trans (le_max_left _ _)⟩
  | parse rule => exact (Parser.GoesOn.rule rule).after c
  | declaration => exact Parser.GoesOn.declaration.after c

/-- So do any operations one after another, by induction on them. -/
theorem movesTo_performAll (operations : List Operation) (c : Cursor)
    : c.MovesTo (c.performAll operations)
      ∧ (c.performAll operations).depth ≤ max c.depth maxOpenGroups := by
  induction operations generalizing c with
  | nil => exact ⟨.refl c, le_max_left _ _⟩
  | cons operation rest ih =>
      obtain ⟨moves, limit⟩ := operation.movesTo_perform c
      obtain ⟨moves', limit'⟩ := ih (operation.perform c)
      refine ⟨moves.trans moves', limit'.trans (max_le limit (le_max_right _ _))⟩

end Cursor

/-- Where cursors can be. Whatever operations are done on a list, whether they succeed or not, each
leaves the position where it was or moves it on, not past the first end token, which is next
exactly at its index, and at most 256 groups are open. A parser of a rule that succeeds has moved
by a token at least and has closed what it opened, and one that fails has closed nothing else. So
statements are parsed in no more rounds than there are tokens in front of the first end token:
the rounds come to the end of these or to a statement that fails, as does parsing the list.
-/
theorem Parser.cursor_stays_before_end (tokens : List Token)
    : (∀ (operations : List Cursor.Operation) (operation : Cursor.Operation),
        let c := (Cursor.start tokens).performAll operations
        c.rest = tokens.drop c.position
        ∧ c.position ≤ (operation.perform c).position
        ∧ c.position ≤ Token.endIndex tokens
        ∧ (c.atEnd ↔ c.position = Token.endIndex tokens)
        ∧ c.depth ≤ 256)
      ∧ (∀ (rule : Rule) (c c' : Cursor),
        (∀ result, rule.parser.run c = .ok result c' →
          c.position + 1 ≤ c'.position ∧ c'.depth = c.depth)
        ∧ (∀ error, rule.parser.run c = .error error c' → c.depth ≤ c'.depth))
      ∧ (∀ program c, Rounds (Cursor.start tokens) program c →
        program.length ≤ Token.endIndex tokens)
      ∧ ∃ program c, Rounds (Cursor.start tokens) program c
        ∧ (c.atEnd ∧ Program.ofTokens tokens = .ok program
          ∨ ¬ c.atEnd
            ∧ ∃ error stopped, statement.run c = .error error stopped
              ∧ Program.ofTokens tokens = .error error) := by
  refine ⟨?_, ?_, ?_, ?_⟩
  · intro operations operation c
    obtain ⟨moves, limit⟩ := (Cursor.start tokens).movesTo_performAll operations
    obtain ⟨before, atEnd⟩ := moves.position_le_endIndex
    obtain ⟨further, -⟩ := operation.movesTo_perform c
    have few := limit.trans (max_le (Nat.zero_le _) le_rfl)
    exact ⟨moves.rest_eq_drop, further.position_le, before, atEnd, few⟩
  · intro rule c c'
    refine ⟨fun result run => ?_, fun error run => ?_⟩
    · exact ⟨Rule.position_lt run, ((GoesOn.rule rule).ok run).2⟩
    · exact ((GoesOn.rule rule).error run).2.1
  · intro program c rounds
    obtain ⟨moves, passed⟩ := rounds.moves
    have before := moves.position_le_endIndex.1
    exact (Nat.le_add_left _ _).trans (passed.trans before)
  · obtain ⟨program, c, rounds, ended⟩ := exists_rounds (Cursor.start tokens)
    refine ⟨program, c, rounds, ended.imp ?_ ?_⟩
    · intro succeeded
      refine ⟨succeeded.1, ?_⟩
      have run : Parser.program.run (Cursor.start tokens) = .ok program c := succeeded.2 []
      rw [Program.ofTokens, run]
    · intro failed
      obtain ⟨inside, error, stopped, last, whole⟩ := failed
      refine ⟨inside, error, stopped, last, ?_⟩
      have run : Parser.program.run (Cursor.start tokens) = .error error stopped := whole []
      rw [Program.ofTokens, run]

end Reckoner
