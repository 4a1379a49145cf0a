import Reckoner.Proofs.Parsing.Stopping

/-! Where token lists stop being programs. A list that is no program is refused at its first
token that no program goes on with: up to there the list can be completed to a program, and
with that token it cannot.
-/

namespace Reckoner

-----------------------------------------------------------------------------------------
-- Statements
-----------------------------------------------------------------------------------------

/-- Some clause begins with the tokens and opens no more groups inside each other than there is
room for.
-/
def Clause.Begins (room : Nat) (read : List Token) : Prop :=
  ∃ clause : Clause, read <+: clause.tokens ∧ clause.nesting ≤ room

namespace Clause.Begins

variable {room : Nat} {read more : List Token}

theorem expression (begins : (Level.chain .additive).Begins room read)
    : Clause.Begins room read := by
  obtain ⟨phrase, begins, fits⟩ := begins
  exact ⟨.expression phrase, begins, fits⟩

theorem declaration {keyword name equals : Token} (opens : keyword.kind = .letKeyword)
    (names : name.kind = .identifier) (defines : equals.kind = .equals)
    (begins : (Level.chain .additive).Begins room read)
    : Clause.Begins room ([keyword, name, equals] ++ read) := by
  obtain ⟨phrase, begins, fits⟩ := begins
  refine ⟨.declaration keyword name equals phrase opens names defines, ?_, fits⟩
  exact (List.prefix_append_right_inj [keyword, name, equals]).mpr begins

theorem of_prefix (begins : Clause.Begins room more) (shorter : read <+: more)
    : Clause.Begins room read := by
  obtain ⟨clause, begins, fits⟩ := begins
  exact ⟨clause, shorter.trans begins, fits⟩

end Clause.Begins

namespace Parser

variable {c stopped : Cursor} {error : SyntaxError}

/-- Where an expression fails, it stops on a token behind the beginning of a phrase. -/
theorem stops_expression (run : expression.run c = .error error stopped)
    : ∃ read token,
        expression.StopsOn c error read token
        ∧ (Level.chain .additive).Begins (maxOpenGroups - c.depth) read := by
  rw [run_expression_eq_additive, additive_eq_level] at run
  obtain ⟨read, token, stops, begins⟩ := (Level.chain .additive).stops c.depth rfl run
  exact ⟨read, token, stops.of_run_eq fun d _ => run_expression_eq_additive d, begins⟩

/-- A declaration fails at its name, at its equals sign or in its initializer. -/
theorem stops_declaration (opens : c.peek.kind = .letKeyword)
    (run : declaration.run c = .error error stopped)
    : ∃ read token,
        declaration.StopsOn c error read token
        ∧ Clause.Begins (maxOpenGroups - c.depth) read := by
  let name : Token := { kind := .identifier, text := "x", line := 0 }
  let equals : Token := { kind := .equals, text := "=", line := 0 }
  have nothing := Level.Begins.nil (.chain .additive) (maxOpenGroups - c.depth)
  have keyword : advance.Passes c [c.peek] c.peek c.next := passes_advance (by simp [opens])
  rcases run_bind_eq_error_iff.mp run with failed | ⟨_, _, read, behindKeyword⟩
  · cases failed
  cases read
  rcases run_bind_eq_error_iff.mp behindKeyword with failed | ⟨_, _, read, behindName⟩
  · obtain ⟨unnamed, rfl, rfl⟩ := run_expect_eq_error_iff.mp failed
    have stops := stopsOn_expect declarationContext unnamed
    have whole : Clause.Begins (maxOpenGroups - c.depth) [c.peek, name, equals] :=
      .declaration opens rfl rfl nothing
    exact ⟨_, _, keyword.bind stops.bind,
      whole.of_prefix (List.prefix_append [c.peek] [name, equals])⟩
  obtain ⟨names, rfl, rfl⟩ := run_expect_eq_ok_iff.mp read
  have label := passes_expect declarationContext names (by simp)
  rcases run_bind_eq_error_iff.mp behindName with failed | ⟨_, _, read, behindSign⟩
  · obtain ⟨undefined, rfl, rfl⟩ := run_expect_eq_error_iff.mp failed
    have stops := stopsOn_expect declarationContext undefined
    have whole : Clause.Begins (maxOpenGroups - c.depth) [c.peek, c.next.peek, equals] :=
      .declaration opens names rfl nothing
    exact ⟨_, _, keyword.bind (label.bind stops.bind),
      whole.of_prefix (List.prefix_append [c.peek, c.next.peek] [equals])⟩
  obtain ⟨defines, rfl, rfl⟩ := run_expect_eq_ok_iff.mp read
  have sign := passes_expect declarationContext defines (by simp)
  rcases run_bind_eq_error_iff.mp behindSign with failed | ⟨_, _, _, ended⟩
  · obtain ⟨read, token, stops, begins⟩ := stops_expression failed
    simp only [Cursor.depth_next] at begins
    exact ⟨_, token, keyword.bind (label.bind (sign.bind stops.bind)),
      .declaration opens names defines begins⟩
  · cases ended

/-- A statement fails as a declaration or in its expression, told by its first token. -/
theorem stops_statement (run : statement.run c = .error error stopped)
    : ∃ read token,
        statement.StopsOn c error read token
        ∧ Clause.Begins (maxOpenGroups - c.depth) read := by
  rw [run_statement] at run
  by_cases opens : c.peek.kind = .letKeyword
  · rw [if_pos opens] at run
    obtain ⟨read, token, stops, begins⟩ := stops_declaration opens run
    refine ⟨read, token, stops.of_run_eq fun d first => ?_, begins⟩
    rw [run_statement, if_pos (first ▸ opens)]
  · rw [if_neg opens] at run
    rcases run_bind_eq_error_iff.mp run with failed | ⟨_, _, _, ended⟩
    · obtain ⟨read, token, stops, begins⟩ := stops_expression failed
      have kept : (do return .expression (← expression) c.peek.line : Parser Statement).StopsOn
          c error read token :=
        stops.bind
      refine ⟨read, token, kept.of_run_eq fun d first => ?_, .expression begins⟩
      rw [run_statement, if_neg (first ▸ opens), first]
    · cases ended

-----------------------------------------------------------------------------------------
-- Programs
-----------------------------------------------------------------------------------------

/-- Parses statements up to the end, behind those already parsed, with no bound of its own. -/
def statements (parsed : Program) : Parser Program := do
  statementsFrom (← get).rest parsed

/-- Any bound that is no shorter than the tokens left lets statements be parsed to the end.
Witness: induction on the bound. Each statement leaves fewer tokens.
-/
theorem run_statementsFrom_of_le {bound bound' : List Token} (parsed : Program)
    (enough : c.rest.length ≤ bound.length) (enough' : c.rest.length ≤ bound'.length)
    : (statementsFrom bound parsed).run c = (statementsFrom bound' parsed).run c := by
  induction bound generalizing bound' parsed c with
  | nil =>
      have atEnd := Cursor.atEnd_of_length_eq_zero (Nat.le_zero.mp enough)
      rw [run_statementsFrom_of_atEnd [] parsed atEnd,
        run_statementsFrom_of_atEnd bound' parsed atEnd]
  | cons token bound ih =>
      by_cases atEnd : c.atEnd
      · rw [run_statementsFrom_of_atEnd (token :: bound) parsed atEnd,
          run_statementsFrom_of_atEnd bound' parsed atEnd]
      · cases bound' with
        | nil => exact absurd (Cursor.atEnd_of_length_eq_zero (Nat.le_zero.mp enough')) atEnd
        | cons token' bound' =>
            rw [run_statementsFrom_cons token bound parsed atEnd,
              run_statementsFrom_cons token' bound' parsed atEnd, EStateM.run_bind,
              EStateM.run_bind]
            cases first : statement.run c with
            | error error stopped => rfl
            | ok s middle =>
                obtain ⟨clause, _, stands⟩ := run_statement_eq_ok_iff.mp first
                have fewer := clause.length_rest_lt stands.reads
                rw [List.length_cons] at enough enough'
                exact ih (s :: parsed) (by omega) (by omega)

/-- Statements are parsed until the end is next, whatever their number. -/
theorem run_statements (parsed : Program) (c : Cursor)
    : (statements parsed).run c
      = if c.atEnd then
          .ok parsed.reverse c
        else
          (do statements ((← statement) :: parsed)).run c := by
  rw [statements, EStateM.run_bind, EStateM.run_get]
  by_cases atEnd : c.atEnd
  · rw [if_pos atEnd]
    exact run_statementsFrom_of_atEnd _ parsed atEnd
  · rw [if_neg atEnd]
    have word : c.peek.kind ≠ .endOfInput := by simpa [Cursor.atEnd] using atEnd
    obtain ⟨more, rest⟩ := Cursor.rest_of_peek word
    simp only [rest]
    rw [run_statementsFrom_cons _ _ parsed atEnd, EStateM.run_bind, EStateM.run_bind]
    cases first : statement.run c with
    | error error stopped => rfl
    | ok s middle =>
        obtain ⟨clause, _, stands⟩ := run_statement_eq_ok_iff.mp first
        have fewer := clause.length_rest_lt stands.reads
        rw [rest, List.length_cons] at fewer
        exact run_statementsFrom_of_le (s :: parsed) (Nat.le_of_lt_succ fewer) (Nat.le_refl _)

/-- Where statements fail, they stop on a token behind the beginning of a derivation.
Witness: induction on the tokens left, of which each statement takes some.
-/
theorem stops_statements {parsed : Program}
    (run : (statements parsed).run c = .error error stopped)
    : ∃ read token,
        (statements parsed).StopsOn c error read token
        ∧ ∃ derivation : Derivation,
            read <+: derivation.tokens
            ∧ ∀ clause ∈ derivation, clause.nesting ≤ maxOpenGroups - c.depth := by
  induction size : c.rest.length using Nat.strongRecOn generalizing c parsed with
  | _ size ih =>
      rw [run_statements] at run
      split at run
      · cases run
      · next inside =>
          have goesOn (d : Cursor) (first : d.peek = c.peek)
              : (statements parsed).run d = (do statements ((← statement) :: parsed)).run d := by
            have inside' : ¬ d.atEnd := by rwa [Cursor.atEnd, first]
            rw [run_statements, if_neg inside']
          rcases run_bind_eq_error_iff.mp run with failed | ⟨_, middle, first, behind⟩
          · obtain ⟨read, token, stops, clause, begins, fits⟩ := stops_statement failed
            refine ⟨read, token, stops.bind.of_run_eq goesOn, [clause], ?_, ?_⟩
            · rwa [Derivation.tokens_singleton]
            · exact List.forall_mem_singleton.mpr fits
          · obtain ⟨clause, rfl, stands⟩ := run_statement_eq_ok_iff.mp first
            have fewer := clause.length_rest_lt stands.reads
            obtain ⟨read, token, stops, rest, begins, fits⟩ :=
              ih middle.rest.length (by omega) behind rfl
            refine ⟨clause.tokens ++ read, token,
              (stands.passes.bind stops).of_run_eq goesOn, clause :: rest, ?_, ?_⟩
            · rw [Derivation.tokens_cons]
              exact (List.prefix_append_right_inj _).mpr begins
            · rw [stands.reads.depth] at fits
              exact List.forall_mem_cons.mpr ⟨stands.room, fits⟩

end Parser

-----------------------------------------------------------------------------------------
-- Token lists
-----------------------------------------------------------------------------------------

/-- The tokens up to the first end token, with the one behind the list if it has none. -/
def Token.throughEnd : List Token → List Token
  | [] => [.endOfInput 0]
  | token :: rest => if token.kind = .endOfInput then [token] else token :: throughEnd rest

/-- Tokens are viable if some program begins with them. -/
def Program.IsViable (front : List Token) : Prop :=
  ∃ rest program, ofTokens (front ++ rest) = .ok program

/-- What a cursor comes upon from the start, with no end token but the last, are the tokens up
to the first end token.
-/
theorem Token.prefix_throughEnd {tokens read : List Token} {token : Token}
    (sees : (Cursor.start tokens).Sees (read ++ [token]))
    (words : ∀ token ∈ read, token.kind ≠ .endOfInput)
    : read ++ [token] <+: throughEnd tokens := by
  induction read generalizing tokens with
  | nil =>
      obtain rfl := sees.peek_eq
      cases tokens with
      | nil => exact List.prefix_rfl
      | cons first rest =>
          rw [throughEnd]
          split
          · exact List.prefix_rfl
          · exact List.prefix_append [first] _
  | cons first read ih =>
      obtain ⟨word, others⟩ := List.forall_mem_cons.mp words
      cases tokens with
      | nil =>
          have found : Token.endOfInput 0 = first := Cursor.Sees.peek_eq sees
          exact absurd (congrArg Token.kind found.symm) word
      | cons head rest =>
          obtain rfl : head = first := Cursor.Sees.peek_eq sees
          rw [throughEnd, if_neg word]
          exact (List.prefix_cons_inj _).mpr (ih ((List.prefix_cons_inj _).mp sees) others)

namespace Program

theorem IsViable.of_prefix {front more : List Token} (viable : IsViable more)
    (shorter : front <+: more)
    : IsViable front := by
  obtain ⟨rest, program, parsed⟩ := viable
  obtain ⟨between, rfl⟩ := shorter
  exact ⟨between ++ rest, program, by rwa [← List.append_assoc]⟩

theorem ofTokens_eq_error_iff {tokens : List Token} {error : SyntaxError}
    : ofTokens tokens = .error error
      ↔ ∃ stopped, Parser.program.run (Cursor.start tokens) = .error error stopped := by
  rw [ofTokens]
  cases Parser.program.run (Cursor.start tokens) <;> simp

/-- No program begins with tokens on the last of which the parser stops. -/
theorem not_isViable_of_stopsOn {tokens read : List Token} {error : SyntaxError} {token : Token}
    (stops : Parser.program.StopsOn (Cursor.start tokens) error read token)
    : ¬ IsViable (read ++ [token]) := by
  rintro ⟨rest, program, parsed⟩
  have sees : (Cursor.start (read ++ [token] ++ rest)).Sees (read ++ [token]) :=
    (List.prefix_append _ rest).trans (List.prefix_append _ _)
  obtain ⟨stopped, run⟩ := stops.fails (Cursor.start (read ++ [token] ++ rest)) rfl sees
  have refused := ofTokens_eq_error_iff.mpr ⟨stopped, run⟩
  rw [parsed] at refused
  cases refused

/-- A token list that is no program is refused at its first token that no program goes on
with: the tokens in front of it are the most that some program begins with, and the error is on
its line and shows it.
-/
theorem refused_at_first_unviable {tokens : List Token} {error : SyntaxError}
    (refused : ofTokens tokens = .error error)
    : ∃ i token,
        (Token.throughEnd tokens)[i]? = some token
        ∧ (∀ j, IsViable ((Token.throughEnd tokens).take j) ↔ j ≤ i)
        ∧ error.line = token.line
        ∧ error.Blames token := by
  obtain ⟨stopped, run⟩ := ofTokens_eq_error_iff.mp refused
  obtain ⟨read, token, stops, derivation, begins, fits⟩ := Parser.stops_statements run
  have words : ∀ token ∈ read, token.kind ≠ .endOfInput :=
    fun token member => derivation.kind_ne_endOfInput (begins.subset member)
  obtain ⟨behind, whole⟩ := Token.prefix_throughEnd stops.sees words
  refine ⟨read.length, token, ?_, fun j => ?_, stops.blames.line_eq, stops.blames⟩
  · simp [← whole]
  · rw [← whole]
    constructor
    · intro viable
      by_contra later
      -- More tokens than were read have the one among them that the parser stops on.
      refine not_isViable_of_stopsOn stops (viable.of_prefix (List.prefix_take_iff.mpr ?_))
      exact ⟨List.prefix_append _ _, by simpa [Nat.succ_le_iff] using later⟩
    · intro within
      have viable : IsViable derivation.tokens :=
        ⟨[], _, by rw [List.append_nil]; exact Derivation.ofTokens_tokens fits⟩
      refine viable.of_prefix (List.IsPrefix.trans ?_ begins)
      rw [List.append_assoc, List.take_append_of_le_length within]
      exact List.take_prefix j read

/-- A second number inside a group is refused where it stands, and with everything in front of
it the list can still be completed.
-/
theorem refused_at_first_unviable_second_number
    : let tokens : List Token :=
        [⟨.letKeyword, "let", 1⟩, ⟨.identifier, "x", 1⟩, ⟨.equals, "=", 1⟩,
          ⟨.openParen, "(", 1⟩, ⟨.number, "1", 1⟩, ⟨.number, "2", 2⟩]
      let error : SyntaxError :=
        .expectedToken .closeParen ⟨.number, "2", 2⟩ Parser.groupContext
      ofTokens tokens = .error error
      ∧ ∀ j, IsViable ((Token.throughEnd tokens).take j) ↔ j ≤ 5 := by
  intro tokens error
  have refused : ofTokens tokens = .error error := by decide +kernel
  obtain ⟨i, token, found, viable, -, blames⟩ := refused_at_first_unviable refused
  obtain rfl : ⟨.number, "2", 2⟩ = token := blames
  have only : ∀ i < 7, (Token.throughEnd tokens)[i]? = some ⟨.number, "2", 2⟩ → i = 5 := by
    decide
  obtain rfl := only i (List.getElem?_eq_some_iff.mp found).1 found
  exact ⟨refused, viable⟩

end Program
end Reckoner
