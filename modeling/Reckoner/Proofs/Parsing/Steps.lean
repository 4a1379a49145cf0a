import Reckoner.Program.Parse

/-! The steps of the parsers: how each moves the cursor, and how runs compose. -/

namespace Reckoner

-----------------------------------------------------------------------------------------
-- Cursors and the tokens between them
-----------------------------------------------------------------------------------------

namespace Cursor

theorem peek_of_rest {c : Cursor} {token : Token} {more : List Token}
    (rest : c.rest = token :: more)
    : c.peek = token := by
  simp only [peek, rest, List.headD_cons]

theorem rest_of_peek {c : Cursor} (word : c.peek.kind ≠ .endOfInput)
    : ∃ more, c.rest = c.peek :: more := by
  cases rest : c.rest with
  | nil => simp [peek, rest, Token.endOfInput] at word
  | cons token more => exact ⟨more, by rw [peek_of_rest rest]⟩

theorem next_of_rest {c : Cursor} {token : Token} {more : List Token}
    (rest : c.rest = token :: more) (word : token.kind ≠ .endOfInput)
    : c.next = { c with rest := more, position := c.position + 1 } := by
  simp only [next, rest, if_neg word]

/-- Between the first cursor and the second stand the given tokens, and no group is opened or
closed for good.
-/
structure Reads (c : Cursor) (read : List Token) (c' : Cursor) : Prop where
  rest : c.rest = read ++ c'.rest
  position : c'.position = c.position + read.length
  depth : c'.depth = c.depth

theorem Reads.refl (c : Cursor)
    : c.Reads [] c :=
  ⟨rfl, rfl, rfl⟩

theorem Reads.trans {c middle c' : Cursor} {first second : List Token}
    (before : c.Reads first middle) (behind : middle.Reads second c')
    : c.Reads (first ++ second) c' := by
  refine ⟨?_, ?_, behind.depth.trans before.depth⟩
  · rw [before.rest, behind.rest, List.append_assoc]
  · rw [behind.position, before.position, List.length_append, Nat.add_assoc]

/-- Reading the next token moves the cursor behind it, if it is not an end token. -/
theorem reads_next {c : Cursor} (word : c.peek.kind ≠ .endOfInput)
    : c.Reads [c.peek] c.next := by
  obtain ⟨more, rest⟩ := rest_of_peek word
  rw [next_of_rest rest word]
  exact ⟨rest, rfl, rfl⟩

theorem Reads.unique {c c' other : Cursor} {read : List Token} (reads : c.Reads read c')
    (reads' : c.Reads read other)
    : c' = other := by
  have rests := List.append_cancel_left (reads.rest.symm.trans reads'.rest)
  have positions := reads.position.trans reads'.position.symm
  have depths := reads.depth.trans reads'.depth.symm
  cases c'
  cases other
  simp only at rests positions depths
  rw [rests, positions, depths]

/-- Reading tokens one after another passes a cursor between them. -/
theorem Reads.split {c c' : Cursor} {first second : List Token}
    (reads : c.Reads (first ++ second) c')
    : ∃ middle, c.Reads first middle ∧ middle.Reads second c' := by
  let middle : Cursor :=
    { rest := second ++ c'.rest, position := c.position + first.length, depth := c.depth }
  refine ⟨middle, ⟨?_, rfl, rfl⟩, ⟨rfl, ?_, reads.depth⟩⟩
  · rw [reads.rest, List.append_assoc]
  · rw [reads.position, List.length_append, Nat.add_assoc]

theorem Reads.head {c c' : Cursor} {token : Token} {more : List Token}
    (reads : c.Reads (token :: more) c') (word : token.kind ≠ .endOfInput)
    : c.peek = token ∧ c.next.Reads more c' := by
  have found := peek_of_rest reads.rest
  obtain ⟨middle, before, behind⟩ := (show c.Reads ([token] ++ more) c' from reads).split
  subst found
  rw [(reads_next word).unique before]
  exact ⟨rfl, behind⟩

theorem Reads.withDepth {c c' : Cursor} {read : List Token} (reads : c.Reads read c')
    (depth : Nat)
    : ({ c with depth := depth } : Cursor).Reads read { c' with depth := depth } :=
  ⟨reads.rest, reads.position, rfl⟩

theorem Reads.length_le {c c' : Cursor} {read : List Token} (reads : c.Reads read c')
    : c'.rest.length ≤ c.rest.length := by
  rw [reads.rest, List.length_append]
  exact Nat.le_add_left _ _

/-- Fewer tokens are left behind what is read behind a token than in front of that token. -/
theorem Reads.length_lt_of_next {c c' : Cursor} {read : List Token}
    (reads : c.next.Reads read c') (word : c.peek.kind ≠ .endOfInput)
    : c'.rest.length < c.rest.length := by
  have taken := congrArg List.length (reads_next word).rest
  have shorter := reads.length_le
  simp only [List.length_append, List.length_singleton] at taken
  omega

end Cursor

-----------------------------------------------------------------------------------------
-- Runs
-----------------------------------------------------------------------------------------

namespace Parser

@[simp] theorem run_peek (c : Cursor)
    : peek.run c = .ok c.peek c :=
  rfl

@[simp] theorem run_advance (c : Cursor)
    : advance.run c = .ok c.peek c.next :=
  rfl

@[simp] theorem run_throw {α : Type} (error : SyntaxError) (c : Cursor)
    : (throw error : Parser α).run c = .error error c :=
  rfl

/-- A parser that goes on with another succeeds if both do, one from where the other stopped.
-/
theorem run_bind_eq_ok_iff {α β : Type} {p : Parser α} {f : α → Parser β} {c c' : Cursor}
    {b : β}
    : (p >>= f).run c = .ok b c'
      ↔ ∃ a middle, p.run c = .ok a middle ∧ (f a).run middle = .ok b c' := by
  rw [EStateM.run_bind]
  constructor
  · intro run
    cases first : p.run c with
    | ok a middle => exact ⟨a, middle, rfl, by rwa [first] at run⟩
    | error error middle => simp [first] at run
  · intro ran
    obtain ⟨a, middle, first, second⟩ := ran
    rw [first]
    exact second

/-- It fails if the first does, or the second from where the first stopped. -/
theorem run_bind_eq_error_iff {α β : Type} {p : Parser α} {f : α → Parser β}
    {c stopped : Cursor} {error : SyntaxError}
    : (p >>= f).run c = .error error stopped
      ↔ p.run c = .error error stopped
        ∨ ∃ a middle, p.run c = .ok a middle ∧ (f a).run middle = .error error stopped := by
  rw [EStateM.run_bind]
  constructor
  · intro run
    cases first : p.run c with
    | ok a middle => exact .inr ⟨a, middle, rfl, by rwa [first] at run⟩
    | error found middle => exact .inl (by simpa [first] using run)
  · rintro (first | ⟨a, middle, first, second⟩)
    · rw [first]
    · rw [first]
      exact second

theorem run_expect (kind : TokenKind) (context : String) (c : Cursor)
    : (expect kind context).run c
      = if c.peek.kind = kind then
          .ok c.peek c.next
        else
          .error (.expectedToken kind c.peek context) c := by
  rw [expect, EStateM.run_bind, run_peek]
  by_cases found : c.peek.kind = kind <;> simp [found]

theorem run_expect_eq_ok_iff {kind : TokenKind} {context : String} {c c' : Cursor}
    {token : Token}
    : (expect kind context).run c = .ok token c'
      ↔ c.peek.kind = kind ∧ c.peek = token ∧ c.next = c' := by
  rw [run_expect]
  by_cases found : c.peek.kind = kind <;> simp [found]

theorem run_expect_eq_error_iff {kind : TokenKind} {context : String} {c stopped : Cursor}
    {error : SyntaxError}
    : (expect kind context).run c = .error error stopped
      ↔ c.peek.kind ≠ kind ∧ .expectedToken kind c.peek context = error ∧ c = stopped := by
  rw [run_expect]
  by_cases found : c.peek.kind = kind <;> simp [found]

theorem run_enterGroup (line : Nat) (c : Cursor)
    : (enterGroup line).run c
      = if maxOpenGroups ≤ c.depth then
          .error (.nestingTooDeep line) c
        else
          .ok () { c with depth := c.depth + 1 } := by
  rw [enterGroup, EStateM.run_bind, EStateM.run_get]
  by_cases full : maxOpenGroups ≤ c.depth <;> simp [full]

theorem run_enterGroup_eq_ok_iff {line : Nat} {c c' : Cursor} {u : Unit}
    : (enterGroup line).run c = .ok u c'
      ↔ c.depth < maxOpenGroups ∧ { c with depth := c.depth + 1 } = c' := by
  rw [run_enterGroup]
  by_cases full : maxOpenGroups ≤ c.depth
  · simp [full, Nat.not_lt_of_le full]
  · simp [full, Nat.lt_of_not_le full]

@[simp] theorem run_leaveGroup (c : Cursor)
    : leaveGroup.run c = .ok () { c with depth := c.depth - 1 } :=
  rfl

-----------------------------------------------------------------------------------------
-- Operands and chains
-----------------------------------------------------------------------------------------

/-- What stands behind an opening parenthesis, given a parser for what stands inside. -/
def groupWith (inner : Parser Expr) (line : Nat) : Parser Expr := do
  enterGroup line
  let e ← inner
  let _ ← expect .closeParen groupContext
  leaveGroup
  return e

theorem run_groupWith_eq_ok_iff {inner : Parser Expr} {line : Nat} {c c' : Cursor} {e : Expr}
    : (groupWith inner line).run c = .ok e c'
      ↔ c.depth < maxOpenGroups
        ∧ ∃ middle,
            inner.run { c with depth := c.depth + 1 } = .ok e middle
            ∧ middle.peek.kind = .closeParen
            ∧ { middle.next with depth := middle.next.depth - 1 } = c' := by
  simp only [groupWith, run_bind_eq_ok_iff, run_enterGroup_eq_ok_iff, run_expect_eq_ok_iff,
    run_leaveGroup, EStateM.run_pure, EStateM.Result.ok.injEq, true_and]
  constructor
  · intro ran
    obtain ⟨_, _, ⟨room, rfl⟩, e, middle, inside, _, _, ⟨closes, rfl, rfl⟩, _, _, rfl,
      rfl, rfl⟩ := ran
    exact ⟨room, middle, inside, closes, rfl⟩
  · intro ran
    obtain ⟨room, middle, inside, closes, rfl⟩ := ran
    exact ⟨(), _, ⟨room, rfl⟩, e, middle, inside, _, _, ⟨closes, rfl, rfl⟩, (), _,
      rfl, rfl, rfl⟩

/-- A group fails if it cannot be opened, inside, or at the parenthesis behind that. -/
theorem run_groupWith_eq_error_iff {inner : Parser Expr} {line : Nat} {c stopped : Cursor}
    {error : SyntaxError}
    : (groupWith inner line).run c = .error error stopped
      ↔ (enterGroup line).run c = .error error stopped
        ∨ ∃ u inside, (enterGroup line).run c = .ok u inside
          ∧ (inner.run inside = .error error stopped
            ∨ ∃ e middle, inner.run inside = .ok e middle
              ∧ (expect .closeParen groupContext).run middle = .error error stopped) := by
  -- Nothing fails behind the closing parenthesis.
  have leaves (e : Expr) (closed : Cursor)
      : ¬ (leaveGroup >>= fun _ => pure e : Parser Expr).run closed = .error error stopped := by
    rw [EStateM.run_bind, run_leaveGroup]
    exact nofun
  simp only [groupWith, run_bind_eq_error_iff, leaves, and_false, exists_false, or_false]

/-- An operand is told by the kind of its first token. -/
theorem run_primaryWith (inner : Parser Expr) (c : Cursor)
    : (primaryWith inner).run c
      = match c.peek.kind with
        | .number =>
            match Binary64.ofText? c.peek.text with
            | some value => .ok (.number value c.peek.line) c.next
            | none => .error (.invalidNumber c.peek.text c.peek.line) c.next
        | .nullKeyword => .ok (.null c.peek.line) c.next
        | .identifier => .ok (.reference c.peek.text c.peek.line) c.next
        | .openParen => (groupWith inner c.peek.line).run c.next
        | _ => .error (.unexpectedToken c.peek) c := by
  rw [primaryWith, EStateM.run_bind, run_peek]
  dsimp only
  cases c.peek.kind with
  | number =>
      rw [EStateM.run_bind, run_advance]
      cases Binary64.ofText? c.peek.text <;> rfl
  | _ => rfl

/-- A chain goes on behind a left operand if an accepted sign stands there. -/
theorem run_chainFrom_cons (accepts : Operator → Bool) (operand : Parser Expr) (token : Token)
    (bound : List Token) (left : Expr) (c : Cursor)
    : (chainFrom accepts operand (token :: bound) left).run c
      = match c.peek.operator? with
        | some op =>
            if accepts op then
              match operand.run c.next with
              | .ok right middle =>
                  (chainFrom accepts operand bound (.binary left op right c.peek.line)).run
                    middle
              | .error error middle => .error error middle
            else
              .ok left c
        | none => .ok left c := by
  rw [chainFrom, EStateM.run_bind, run_peek]
  dsimp only
  cases c.peek.operator? with
  | none => rfl
  | some op =>
      by_cases accepted : accepts op
      · simp only [if_pos accepted, EStateM.run_bind, run_advance]
        cases operand.run c.next <;> rfl
      · simp only [if_neg accepted, EStateM.run_pure]

end Parser
end Reckoner
