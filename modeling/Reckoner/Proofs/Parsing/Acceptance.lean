import Mathlib.Data.List.TakeWhile
import Reckoner.Proofs.Grammar.Unambiguity
import Reckoner.Proofs.Parsing.Completeness

/-! The parser accepts exactly the programs of the grammar. Nothing separates statements, but
what may follow one is never a sign, so each is read to its end and no further.
-/

namespace Reckoner

-----------------------------------------------------------------------------------------
-- Statements
-----------------------------------------------------------------------------------------

/-- A clause stands between two cursors so that a parser reads it, neither less nor more. -/
structure Clause.StandsBetween (clause : Clause) (c c' : Cursor) : Prop where
  reads : c.Reads clause.tokens c'
  room : clause.nesting ≤ maxOpenGroups - c.depth
  ends : ¬ (Level.chain .additive).Extends c'.peek

/-- An expression stands where its phrase does. -/
theorem Clause.standsBetween_expression_iff {value : Phrase (.chain .additive)} {c c' : Cursor}
    : (Clause.expression value).StandsBetween c c' ↔ value.StandsBetween c c' :=
  ⟨fun stands => ⟨stands.reads, stands.room, stands.ends⟩,
    fun stands => ⟨stands.reads, stands.room, stands.ends⟩⟩

/-- A declaration stands where its first three tokens are met and its initializer stands behind
them.
-/
theorem Clause.standsBetween_declaration_iff {keyword name equals : Token}
    {initializer : Phrase (.chain .additive)} {opens : keyword.kind = .letKeyword}
    {names : name.kind = .identifier} {defines : equals.kind = .equals} {c c' : Cursor}
    : (Clause.declaration keyword name equals initializer opens names defines).StandsBetween c c'
      ↔ c.peek = keyword ∧ c.next.peek = name ∧ c.next.next.peek = equals
        ∧ initializer.StandsBetween c.next.next.next c' := by
  constructor
  · intro stands
    obtain ⟨rfl, afterKeyword⟩ := stands.reads.head (by simp [opens])
    obtain ⟨rfl, afterName⟩ := afterKeyword.head (by simp [names])
    obtain ⟨rfl, afterEquals⟩ := afterName.head (by simp [defines])
    have room := stands.room
    rw [← c.depth_next, ← c.next.depth_next, ← c.next.next.depth_next] at room
    exact ⟨rfl, rfl, rfl, afterEquals, room, stands.ends⟩
  · rintro ⟨rfl, rfl, rfl, stands⟩
    refine ⟨?_, ?_, stands.ends⟩
    · exact (Cursor.reads_next (by simp [opens])).trans
        ((Cursor.reads_next (by simp [names])).trans
          ((Cursor.reads_next (by simp [defines])).trans stands.reads))
    · have room := stands.room
      simpa only [Clause.nesting, Cursor.depth_next] using room

theorem Phrase.peek_of_reads {level : Level} (phrase : Phrase level) {c c' : Cursor}
    (reads : c.Reads phrase.tokens c')
    : c.peek = phrase.head := by
  obtain ⟨more, derived⟩ := phrase.tokens_eq_cons
  rw [derived] at reads
  exact Cursor.peek_of_rest reads.rest

namespace Parser

theorem run_declaration_eq_ok_iff {c c' : Cursor} {s : Statement}
    : declaration.run c = .ok s c'
      ↔ ∃ initializer,
          c.next.peek.kind = .identifier
          ∧ c.next.next.peek.kind = .equals
          ∧ expression.run c.next.next.next = .ok initializer c'
          ∧ s = .declaration c.next.peek.text initializer c.peek.line := by
  simp only [declaration, run_bind_eq_ok_iff, run_advance, run_expect_eq_ok_iff,
    EStateM.run_pure, EStateM.Result.ok.injEq]
  constructor
  · intro ran
    obtain ⟨_, _, ⟨rfl, rfl⟩, _, _, ⟨names, rfl, rfl⟩, _, _, ⟨defines, rfl, rfl⟩,
      initializer, _, run, rfl, rfl⟩ := ran
    exact ⟨initializer, names, defines, run, rfl⟩
  · intro ran
    obtain ⟨initializer, names, defines, run, rfl⟩ := ran
    exact ⟨_, _, ⟨rfl, rfl⟩, _, _, ⟨names, rfl, rfl⟩, _, _, ⟨defines, rfl, rfl⟩,
      initializer, _, run, rfl, rfl⟩

theorem run_statement (c : Cursor)
    : statement.run c
      = if c.peek.kind = .letKeyword then
          declaration.run c
        else
          (do return .expression (← expression) c.peek.line : Parser Statement).run c := by
  rw [statement, EStateM.run_bind, run_peek]
  dsimp only
  split <;> rfl

/-- A declaration is parsed exactly if a clause stands there. -/
theorem run_declaration_eq_ok_iff_clause {c c' : Cursor} {s : Statement}
    (opens : c.peek.kind = .letKeyword)
    : declaration.run c = .ok s c'
      ↔ ∃ clause : Clause, clause.statement = s ∧ clause.StandsBetween c c' := by
  rw [run_declaration_eq_ok_iff]
  constructor
  · intro ran
    obtain ⟨initializer, names, defines, run, rfl⟩ := ran
    obtain ⟨phrase, rfl, stands⟩ := run_expression_eq_ok_iff.mp run
    exact ⟨.declaration _ _ _ phrase opens names defines, rfl,
      Clause.standsBetween_declaration_iff.mpr ⟨rfl, rfl, rfl, stands⟩⟩
  · intro standing
    obtain ⟨clause, rfl, stands⟩ := standing
    cases clause with
    | expression value =>
        have first := value.opensPhrase_head
        rw [← value.peek_of_reads stands.reads, opens] at first
        cases first
    | declaration keyword name equals initializer opens' names defines =>
        obtain ⟨rfl, rfl, rfl, behind⟩ := Clause.standsBetween_declaration_iff.mp stands
        exact ⟨initializer.expr, names, defines,
          run_expression_eq_ok_iff.mpr ⟨initializer, rfl, behind⟩, rfl⟩

/-- A statement is read exactly if a clause stands there. -/
theorem run_statement_eq_ok_iff {c c' : Cursor} {s : Statement}
    : statement.run c = .ok s c'
      ↔ ∃ clause : Clause, clause.statement = s ∧ clause.StandsBetween c c' := by
  rw [run_statement]
  split
  · next opens => exact run_declaration_eq_ok_iff_clause opens
  · next other =>
      simp only [run_bind_eq_ok_iff, EStateM.run_pure, EStateM.Result.ok.injEq]
      constructor
      · intro ran
        obtain ⟨e, _, run, rfl, rfl⟩ := ran
        obtain ⟨phrase, rfl, stands⟩ := run_expression_eq_ok_iff.mp run
        refine ⟨.expression phrase, ?_, Clause.standsBetween_expression_iff.mpr stands⟩
        rw [Clause.statement, phrase.peek_of_reads stands.reads]
      · intro standing
        obtain ⟨clause, rfl, stands⟩ := standing
        cases clause with
        | expression value =>
            have standing := Clause.standsBetween_expression_iff.mp stands
            refine ⟨value.expr, c', run_expression_eq_ok_iff.mpr ⟨value, rfl, standing⟩, ?_, rfl⟩
            rw [Clause.statement, value.peek_of_reads stands.reads]
        | declaration keyword name equals initializer opens names defines =>
            obtain ⟨rfl, -⟩ := Clause.standsBetween_declaration_iff.mp stands
            exact absurd opens other

end Parser

-----------------------------------------------------------------------------------------
-- Programs
-----------------------------------------------------------------------------------------

/-- A clause begins with a token that no phrase can take for a sign. -/
theorem Clause.tokens_eq_cons (clause : Clause)
    : ∃ first more,
        clause.tokens = first :: more
        ∧ first.kind ≠ .operator
        ∧ first.kind ≠ .endOfInput := by
  cases clause with
  | expression value =>
      obtain ⟨more, derived⟩ := value.tokens_eq_cons
      have opens := value.opensPhrase_head
      refine ⟨value.head, more, derived, ?_, ?_⟩ <;>
        · intro kind
          rw [kind] at opens
          cases opens
  | declaration keyword name equals initializer opens names defines =>
      exact ⟨keyword, _, rfl, by simp [opens], by simp [opens]⟩

theorem Clause.length_rest_lt (clause : Clause) {c c' : Cursor}
    (reads : c.Reads clause.tokens c')
    : c'.rest.length < c.rest.length := by
  obtain ⟨first, more, derived, _⟩ := clause.tokens_eq_cons
  have lengths := congrArg List.length reads.rest
  simp only [derived, List.length_append, List.length_cons] at lengths
  omega

theorem Cursor.atEnd_of_length_eq_zero {c : Cursor} (nothing : c.rest.length = 0)
    : c.atEnd := by
  simp [atEnd, peek, List.length_eq_zero_iff.mp nothing, Token.endOfInput]

/-- A derivation stands between two cursors, the second at the end of the tokens. -/
structure Derivation.StandsBetween (derivation : Derivation) (c c' : Cursor) : Prop where
  reads : c.Reads derivation.tokens c'
  room : ∀ clause ∈ derivation, clause.nesting ≤ maxOpenGroups - c.depth
  atEnd : c'.atEnd

namespace Derivation.StandsBetween

/-- At the end stands only the empty derivation, since a clause begins with another token. -/
theorem eq_nil {derivation : Derivation} {c c' : Cursor}
    (stands : derivation.StandsBetween c c') (atEnd : c.atEnd)
    : derivation = [] ∧ c = c' := by
  have reads := stands.reads
  cases derivation with
  | nil => exact ⟨rfl, (Cursor.Reads.refl c).unique reads⟩
  | cons clause rest =>
      obtain ⟨first, more, derived, _, word⟩ := clause.tokens_eq_cons
      rw [tokens_cons, derived] at reads
      have found := Cursor.peek_of_rest reads.rest
      simp only [Cursor.atEnd, found, decide_eq_true_eq] at atEnd
      exact absurd atEnd word

/-- A derivation that is not empty stands behind its first clause, which nothing extends. -/
theorem uncons {clause : Clause} {rest : Derivation} {c c' : Cursor}
    (stands : StandsBetween (clause :: rest) c c')
    : ∃ middle, clause.StandsBetween c middle ∧ rest.StandsBetween middle c' := by
  have reads := stands.reads
  rw [tokens_cons] at reads
  obtain ⟨middle, first, behind⟩ := reads.split
  have room := List.forall_mem_cons.mp stands.room
  refine ⟨middle, ⟨first, room.1, ?_⟩, ⟨behind, ?_, stands.atEnd⟩⟩
  · apply Level.not_extends_of_kind
    cases rest with
    | nil =>
        obtain rfl := (Cursor.Reads.refl middle).unique behind
        have atEnd := stands.atEnd
        simp only [Cursor.atEnd, decide_eq_true_eq] at atEnd
        simp [atEnd]
    | cons next rest =>
        obtain ⟨token, more, derived, silent, _⟩ := next.tokens_eq_cons
        rw [tokens_cons, derived] at behind
        rwa [Cursor.peek_of_rest behind.rest]
  · rw [first.depth]
    exact room.2

theorem cons {clause : Clause} {rest : Derivation} {c middle c' : Cursor}
    (first : clause.StandsBetween c middle) (behind : rest.StandsBetween middle c')
    : StandsBetween (clause :: rest) c c' := by
  refine ⟨?_, ?_, behind.atEnd⟩
  · rw [tokens_cons]
    exact first.reads.trans behind.reads
  · have room := behind.room
    rw [first.reads.depth] at room
    exact List.forall_mem_cons.mpr ⟨first.room, room⟩

end Derivation.StandsBetween

namespace Parser

theorem run_statementsFrom_of_atEnd (bound : List Token) (parsed : Program) {c : Cursor}
    (atEnd : c.atEnd)
    : (statementsFrom bound parsed).run c = .ok parsed.reverse c := by
  cases bound with
  | nil => rfl
  | cons token bound =>
      rw [statementsFrom, EStateM.run_bind, EStateM.run_get]
      simp only [if_pos atEnd, EStateM.run_pure]

theorem run_statementsFrom_cons (token : Token) (bound : List Token) (parsed : Program)
    {c : Cursor} (inside : ¬ c.atEnd)
    : (statementsFrom (token :: bound) parsed).run c
      = (statement >>= fun next => statementsFrom bound (next :: parsed)).run c := by
  rw [statementsFrom, EStateM.run_bind, EStateM.run_get]
  simp only [if_neg inside]

theorem run_statementsFrom_eq_ok_iff_of_atEnd {bound : List Token} {parsed : Program}
    {c c' : Cursor} {p : Program} (atEnd : c.atEnd)
    : (statementsFrom bound parsed).run c = .ok p c'
      ↔ ∃ derivation : Derivation,
          parsed.reverse ++ derivation.program = p ∧ derivation.StandsBetween c c' := by
  rw [run_statementsFrom_of_atEnd bound parsed atEnd]
  constructor
  · intro run
    cases run
    exact ⟨[], List.append_nil _, .refl _, by simp, atEnd⟩
  · intro standing
    obtain ⟨derivation, rfl, stands⟩ := standing
    obtain ⟨rfl, rfl⟩ := stands.eq_nil atEnd
    rw [Derivation.program, List.map_nil, List.append_nil]

/-- Statements are read up to the end exactly if a derivation stands there, and are put behind
those already parsed. Witness: induction on the bound, which the tokens left never exceed.
-/
theorem run_statementsFrom_eq_ok_iff {bound : List Token} {parsed : Program} {c c' : Cursor}
    {p : Program} (enough : c.rest.length ≤ bound.length)
    : (statementsFrom bound parsed).run c = .ok p c'
      ↔ ∃ derivation : Derivation,
          parsed.reverse ++ derivation.program = p ∧ derivation.StandsBetween c c' := by
  induction bound generalizing parsed c with
  | nil =>
      apply run_statementsFrom_eq_ok_iff_of_atEnd
      exact Cursor.atEnd_of_length_eq_zero (Nat.le_zero.mp enough)
  | cons token bound ih =>
      by_cases atEnd : c.atEnd
      · exact run_statementsFrom_eq_ok_iff_of_atEnd atEnd
      · have fewer {clause : Clause} {middle : Cursor} (stands : clause.StandsBetween c middle)
            : middle.rest.length ≤ bound.length := by
          have shorter := clause.length_rest_lt stands.reads
          rw [List.length_cons] at enough
          omega
        rw [run_statementsFrom_cons token bound parsed atEnd, run_bind_eq_ok_iff]
        constructor
        · intro ran
          obtain ⟨s, middle, first, run⟩ := ran
          obtain ⟨clause, rfl, stands⟩ := run_statement_eq_ok_iff.mp first
          obtain ⟨rest, rfl, behind⟩ := (ih (fewer stands)).mp run
          exact ⟨clause :: rest, by simp [Derivation.program], .cons stands behind⟩
        · intro standing
          obtain ⟨derivation, rfl, stands⟩ := standing
          cases derivation with
          | nil =>
              obtain rfl := (Cursor.Reads.refl c).unique stands.reads
              exact absurd stands.atEnd atEnd
          | cons clause rest =>
              obtain ⟨middle, first, behind⟩ := stands.uncons
              refine ⟨clause.statement, middle, run_statement_eq_ok_iff.mpr ⟨clause, rfl, first⟩,
                (ih (fewer first)).mpr ⟨rest, ?_, behind⟩⟩
              simp [Derivation.program]

end Parser

-----------------------------------------------------------------------------------------
-- Token lists
-----------------------------------------------------------------------------------------

/-- The tokens in front of the first end token, or all if there is none. -/
def Token.beforeEnd (tokens : List Token) : List Token :=
  tokens.takeWhile fun token => token.kind ≠ .endOfInput

/-- A derivation reaches from the start of a token list to its end exactly if it derives what
stands before the first end token.
-/
theorem Derivation.reads_start_iff {derivation : Derivation} {tokens : List Token}
    : (∃ c', (Cursor.start tokens).Reads derivation.tokens c' ∧ c'.atEnd)
      ↔ derivation.tokens = Token.beforeEnd tokens := by
  have words : ∀ token ∈ derivation.tokens, decide (token.kind ≠ .endOfInput) = true :=
    fun token member => decide_eq_true (derivation.kind_ne_endOfInput member)
  constructor
  · intro reached
    obtain ⟨c', reads, atEnd⟩ := reached
    have rest : tokens = derivation.tokens ++ c'.rest := reads.rest
    rw [rest, Token.beforeEnd, List.takeWhile_append_of_pos words]
    cases behind : c'.rest with
    | nil => simp
    | cons token more =>
        rw [Cursor.atEnd, Cursor.peek_of_rest behind, decide_eq_true_eq] at atEnd
        simp [atEnd]
  · intro derived
    let isWord (token : Token) : Bool := token.kind ≠ .endOfInput
    refine ⟨{ rest := tokens.dropWhile isWord, position := derivation.tokens.length,
              depth := 0 }, ⟨?_, (Nat.zero_add _).symm, rfl⟩, ?_⟩
    · rw [derived]
      exact List.takeWhile_append_dropWhile.symm
    · rw [Cursor.atEnd, Cursor.peek]
      cases behind : tokens.dropWhile isWord with
      | nil => rfl
      | cons token more =>
          have stopped := List.head?_dropWhile_not isWord tokens
          rw [behind] at stopped
          simpa [isWord] using stopped

/-- A token list is parsed as a program exactly if the tokens before its end derive it. -/
theorem Program.ofTokens_eq_ok_iff {tokens : List Token} {program : Program}
    : ofTokens tokens = .ok program
      ↔ ∃ derivation : Derivation,
          derivation.tokens = Token.beforeEnd tokens
          ∧ derivation.program = program
          ∧ derivation.WithinLimit := by
  have parsed (c' : Cursor)
      : Parser.program.run (Cursor.start tokens) = .ok program c'
        ↔ ∃ derivation : Derivation,
            [].reverse ++ derivation.program = program
            ∧ derivation.StandsBetween (Cursor.start tokens) c' := by
    rw [Parser.program, EStateM.run_bind, EStateM.run_get]
    exact Parser.run_statementsFrom_eq_ok_iff (Nat.le_refl _)
  have opened : ofTokens tokens = .ok program
      ↔ ∃ c', Parser.program.run (Cursor.start tokens) = .ok program c' := by
    rw [ofTokens]
    cases Parser.program.run (Cursor.start tokens) <;> simp
  rw [opened]
  constructor
  · intro ran
    obtain ⟨c', run⟩ := ran
    obtain ⟨derivation, stands, between⟩ := (parsed c').mp run
    exact ⟨derivation, Derivation.reads_start_iff.mp ⟨c', between.reads, between.atEnd⟩,
      stands, between.room⟩
  · intro derives
    obtain ⟨derivation, derived, stands, within⟩ := derives
    obtain ⟨c', reads, atEnd⟩ := Derivation.reads_start_iff.mpr derived
    exact ⟨c', (parsed c').mpr ⟨derivation, stands, reads, within, atEnd⟩⟩

/-- The tokens of a derivation are parsed as its program, with or without an end. -/
theorem Derivation.ofTokens_tokens {derivation : Derivation} (within : derivation.WithinLimit)
    : Program.ofTokens derivation.tokens = .ok derivation.program := by
  refine Program.ofTokens_eq_ok_iff.mpr ⟨derivation, ?_, rfl, within⟩
  refine (List.takeWhile_eq_self_iff.mpr fun token member => ?_).symm
  exact decide_eq_true (derivation.kind_ne_endOfInput member)

/-- The parser accepts exactly the grammar's token lists and gives the program of their only
derivation: no two derivations derive the same tokens, in spite of statements that nothing
separates.
-/
theorem Program.ofTokens_iff_derived (tokens : List Token) (program : Program)
    : (ofTokens tokens = .ok program
        ↔ ∃! derivation : Derivation,
            derivation.tokens = Token.beforeEnd tokens
            ∧ derivation.program = program
            ∧ derivation.WithinLimit)
      ∧ Function.Injective Derivation.tokens := by
  refine ⟨?_, Derivation.tokens_injective⟩
  rw [ofTokens_eq_ok_iff]
  constructor
  · intro derives
    obtain ⟨derivation, derived, stands, within⟩ := derives
    refine ⟨derivation, ⟨derived, stands, within⟩, ?_⟩
    intro other found
    exact Derivation.tokens_injective (found.1.trans derived.symm)
  · exact ExistsUnique.exists

end Reckoner
