import Reckoner.Proofs.Parsing.Places

/-! What the depth of a cursor counts. Wherever the parser comes, as many groups are open as
parentheses were opened and not closed in the tokens read so far; so only so many that are open at
once are too many, and none are open between statements.
-/

namespace Reckoner

-----------------------------------------------------------------------------------------
-- Parentheses among tokens
-----------------------------------------------------------------------------------------

namespace Token

/-- How many of the tokens are opening parentheses. -/
def opened (tokens : List Token) : Nat :=
  tokens.countP fun token => token.kind = .openParen

/-- How many of the tokens are closing parentheses. -/
def closed (tokens : List Token) : Nat :=
  tokens.countP fun token => token.kind = .closeParen

/-- How many parentheses are open behind a token, with the given number in front of it. Where none
is open, a closing one closes none.
-/
def leavesOpen (before : Nat) (token : Token) : Nat :=
  match token.kind with
  | .openParen => before + 1
  | .closeParen => before - 1
  | _ => before

/-- How many opening parentheses among the tokens no closing one behind them matches. -/
def unmatched (tokens : List Token) : Nat :=
  tokens.foldl leavesOpen 0

/-- Tokens are balanced if they open as many parentheses as they close, and leave as many open as
they find.
-/
structure AreBalanced (tokens : List Token) : Prop where
  opened_eq : opened tokens = closed tokens
  foldl_eq : ∀ before, tokens.foldl leavesOpen before = before

namespace AreBalanced

variable {token opening closing : Token} {first second : List Token}

theorem plain (other : token.kind ≠ .openParen) (other' : token.kind ≠ .closeParen)
    : AreBalanced [token] := by
  refine ⟨by simp [opened, closed, other, other'], fun before => ?_⟩
  simp only [List.foldl_cons, List.foldl_nil, leavesOpen]

theorem append (balanced : AreBalanced first) (balanced' : AreBalanced second)
    : AreBalanced (first ++ second) := by
  refine ⟨?_, fun before => ?_⟩
  · have counts := balanced.opened_eq
    have counts' := balanced'.opened_eq
    simp only [opened, closed, List.countP_append] at counts counts' ⊢
    omega
  · rw [List.foldl_append, balanced.foldl_eq, balanced'.foldl_eq]

theorem group (opens : opening.kind = .openParen) (closes : closing.kind = .closeParen)
    (balanced : AreBalanced first)
    : AreBalanced (opening :: (first ++ [closing])) := by
  refine ⟨?_, fun before => ?_⟩
  · have counts := balanced.opened_eq
    simp only [opened, closed] at counts
    simp [opened, closed, opens, closes, counts]
  · simp [List.foldl_append, balanced.foldl_eq, leavesOpen, opens, closes]

end AreBalanced
end Token

/-- Every phrase closes what it opens, by induction on the phrase. -/
theorem Phrase.areBalanced {level : Level} (phrase : Phrase level)
    : Token.AreBalanced phrase.tokens := by
  induction phrase with
  | number token value kind reads => exact .plain (by simp [kind]) (by simp [kind])
  | null token kind => exact .plain (by simp [kind]) (by simp [kind])
  | name token kind => exact .plain (by simp [kind]) (by simp [kind])
  | group opening inner closing opens closes innerIH => exact innerIH.group opens closes
  | first operand operandIH => exact operandIH
  | joined left sign op right spells accepted leftIH rightIH =>
      have kind := Token.kind_of_operator? spells
      have joint : Token.AreBalanced [sign] := .plain (by simp [kind]) (by simp [kind])
      exact leftIH.append (joint.append rightIH)

theorem Clause.areBalanced (clause : Clause)
    : Token.AreBalanced clause.tokens := by
  cases clause with
  | expression value => exact value.areBalanced
  | declaration keyword name equals initializer opens names defines =>
      have first : Token.AreBalanced [keyword] := .plain (by simp [opens]) (by simp [opens])
      have second : Token.AreBalanced [name] := .plain (by simp [names]) (by simp [names])
      have third : Token.AreBalanced [equals] := .plain (by simp [defines]) (by simp [defines])
      exact first.append (second.append (third.append initializer.areBalanced))

-----------------------------------------------------------------------------------------
-- The depth of a cursor
-----------------------------------------------------------------------------------------

namespace Cursor

/-- A cursor keeps count on a token list if it stands behind as many tokens as it says, and says
how many of the parentheses in them are open, which are no more than may be.
-/
structure KeepsCount (tokens : List Token) (c : Cursor) : Prop where
  rest : c.rest = tokens.drop c.position
  opened : Token.opened (tokens.take c.position)
    = Token.closed (tokens.take c.position) + c.depth
  unmatched : Token.unmatched (tokens.take c.position) = c.depth
  limit : c.depth ≤ maxOpenGroups

variable {tokens read : List Token} {c c' : Cursor}

theorem keepsCount_start (tokens : List Token)
    : (start tokens).KeepsCount tokens :=
  ⟨rfl, rfl, rfl, Nat.zero_le _⟩

namespace KeepsCount

/-- What a cursor reads comes behind what it has read. -/
theorem take_eq (counts : c.KeepsCount tokens) (rest : c.rest = read ++ c'.rest)
    (position : c'.position = c.position + read.length)
    : tokens.take c'.position = tokens.take c.position ++ read
      ∧ c'.rest = tokens.drop c'.position := by
  constructor
  · rw [position, List.take_add, ← counts.rest, rest, List.take_left]
  · rw [position, ← List.drop_drop, ← counts.rest, rest, List.drop_left]

/-- A cursor that reads balanced tokens keeps count. -/
theorem reads (counts : c.KeepsCount tokens) (reads : c.Reads read c')
    (balanced : Token.AreBalanced read)
    : c'.KeepsCount tokens := by
  obtain ⟨taken, rest⟩ := counts.take_eq reads.rest reads.position
  refine ⟨rest, ?_, ?_, reads.depth ▸ counts.limit⟩
  · have before := counts.opened
    have same := balanced.opened_eq
    simp only [Token.opened, Token.closed] at before same
    rw [taken, reads.depth, Token.opened, Token.closed, List.countP_append,
      List.countP_append]
    omega
  · have before := counts.unmatched
    rw [Token.unmatched] at before
    rw [taken, Token.unmatched, List.foldl_append, before, balanced.foldl_eq, reads.depth]

theorem next (counts : c.KeepsCount tokens) (word : c.peek.kind ≠ .endOfInput)
    (other : c.peek.kind ≠ .openParen) (other' : c.peek.kind ≠ .closeParen)
    : c.next.KeepsCount tokens :=
  counts.reads (reads_next word) (.plain other other')

/-- Behind an opening parenthesis one more group is open. -/
theorem enter (counts : c.KeepsCount tokens) (opens : c.peek.kind = .openParen)
    (room : c.depth < maxOpenGroups)
    : ({ c.next with depth := c.next.depth + 1 } : Cursor).KeepsCount tokens := by
  have opening : c.Reads [c.peek] c.next := reads_next (by simp [opens])
  obtain ⟨taken, rest⟩ := counts.take_eq opening.rest opening.position
  refine ⟨rest, ?_, ?_, by rwa [opening.depth]⟩
  · have before := counts.opened
    simp only [Token.opened, Token.closed] at before
    simp only [taken, opening.depth, Token.opened, Token.closed, List.countP_append, before]
    simp [opens]
    omega
  · have before := counts.unmatched
    rw [Token.unmatched] at before
    simp [taken, opening.depth, Token.unmatched, List.foldl_append, before, Token.leavesOpen,
      opens]

end KeepsCount
end Cursor

namespace Parser.ComesTo

variable {tokens : List Token} {place : Place} {c : Cursor}

/-- Wherever the parser comes, its cursor keeps count, by induction on the way there: phrases and
clauses are balanced, and a group is entered behind its parenthesis.
-/
theorem keepsCount (reached : ComesTo tokens place c)
    : c.KeepsCount tokens := by
  induction reached with
  | start => exact Cursor.keepsCount_start tokens
  | boundary _ _ run ih =>
      obtain ⟨clause, -, stands⟩ := run_statement_eq_ok_iff.mp run
      exact ih.reads stands.reads clause.areBalanced
  | statement _ _ ih | expression _ _ ih | first _ ih => exact ih
  | initializer _ opens names defines ih =>
      have behindKeyword := ih.next (by simp [opens]) (by simp [opens]) (by simp [opens])
      have behindName := behindKeyword.next (by simp [names]) (by simp [names]) (by simp [names])
      exact behindName.next (by simp [defines]) (by simp [defines]) (by simp [defines])
  | chain _ run ih =>
      obtain ⟨phrase, -, stands⟩ := Level.run_parser_eq_ok_iff.mp run
      exact ih.reads stands.reads phrase.areBalanced
  | next _ spells _ ih =>
      have kind := Token.kind_of_operator? spells
      exact ih.next (by simp [kind]) (by simp [kind]) (by simp [kind])
  | joined _ spells _ run ih =>
      have kind := Token.kind_of_operator? spells
      obtain ⟨phrase, -, stands⟩ := Level.run_parser_eq_ok_iff.mp run
      have behindSign := ih.next (by simp [kind]) (by simp [kind]) (by simp [kind])
      exact behindSign.reads stands.reads phrase.areBalanced
  | @group c _ _ _ opens entered ih =>
      obtain ⟨room, rfl⟩ := run_enterGroup_eq_ok_iff.mp entered
      rw [c.depth_next] at room
      exact ih.enter opens room
  | @closing c _ _ _ _ _ opens entered run ih =>
      obtain ⟨room, rfl⟩ := run_enterGroup_eq_ok_iff.mp entered
      rw [c.depth_next] at room
      obtain ⟨phrase, -, stands⟩ := Level.run_parser_eq_ok_iff.mp run
      exact (ih.enter opens room).reads stands.reads phrase.areBalanced

/-- Between statements no group is open, since each statement closes those that it opens. -/
theorem depth_eq_zero (reached : ComesTo tokens .boundary c)
    : c.depth = 0 := by
  generalize between : Place.boundary = place at reached
  induction reached with
  | start => rfl
  | boundary _ _ run ih =>
      obtain ⟨clause, -, stands⟩ := run_statement_eq_ok_iff.mp run
      exact stands.reads.depth.trans (ih rfl)
  | _ => cases between

end Parser.ComesTo

-----------------------------------------------------------------------------------------
-- The limit
-----------------------------------------------------------------------------------------

/-- A list is refused for too many open groups exactly if the parser comes, for an operand, to an
opening parenthesis with as many groups open as may be.
-/
theorem Parser.ofTokens_eq_nestingTooDeep_iff {tokens : List Token} {line : Nat}
    : Program.ofTokens tokens = .error (.nestingTooDeep line)
      ↔ ∃ c, ComesTo tokens (.phrase .operand) c
        ∧ c.peek.kind = .openParen
        ∧ maxOpenGroups ≤ c.depth
        ∧ line = c.peek.line := by
  rw [ofTokens_eq_error_iff_isRefused]
  constructor
  · rintro ⟨place, c, reached, refuses⟩
    obtain ⟨rfl, full⟩ := Place.refuses_nestingTooDeep_iff.mp refuses
    exact ⟨c, reached, full⟩
  · rintro ⟨c, reached, full⟩
    exact ⟨_, c, reached, Place.refuses_nestingTooDeep_iff.mpr ⟨rfl, full⟩⟩

namespace Program

/-- The limit on groups is one on those that are open at once. Where an operand is parsed, the
depth is the number of parentheses opened so far less those closed, and at most 256; where a
statement ends, none are open. So a list is refused for too many open groups exactly if the
parser comes, for an operand, to an opening parenthesis behind 256 that are not closed, and on
that one's line, which the message tells with the limit. A list no beginning of which has more
than 256 of these open is never refused for that, however many it has one after another.
-/
theorem depth_counts_open_groups (tokens : List Token)
    : (∀ c, Parser.ComesTo tokens (.phrase .operand) c →
        c.rest = tokens.drop c.position
        ∧ Token.opened (tokens.take c.position)
          = Token.closed (tokens.take c.position) + c.depth
        ∧ Token.unmatched (tokens.take c.position) = c.depth
        ∧ c.depth ≤ 256)
      ∧ (∀ c, Parser.ComesTo tokens .boundary c → c.depth = 0)
      ∧ (∀ line, ofTokens tokens = .error (.nestingTooDeep line) ↔
        ∃ c, Parser.ComesTo tokens (.phrase .operand) c
          ∧ c.peek.kind = .openParen
          ∧ Token.unmatched (tokens.take c.position) = 256
          ∧ line = c.peek.line)
      ∧ (∀ line, (SyntaxError.nestingTooDeep line).details
        = "Parentheses are nested more than 256 levels deep.")
      ∧ ((∀ front, front <+: tokens → Token.unmatched front ≤ 256) →
        ∀ line, ofTokens tokens ≠ .error (.nestingTooDeep line)) := by
  refine ⟨fun c reached => ?_, fun c reached => reached.depth_eq_zero, fun line => ?_,
    fun line => rfl, fun bounded line refused => ?_⟩
  · have counts := reached.keepsCount
    exact ⟨counts.rest, counts.opened, counts.unmatched, counts.limit⟩
  · rw [Parser.ofTokens_eq_nestingTooDeep_iff]
    constructor
    · rintro ⟨c, reached, opens, full, rfl⟩
      have counts := reached.keepsCount
      exact ⟨c, reached, opens,
        counts.unmatched.trans (Nat.le_antisymm counts.limit full), rfl⟩
    · rintro ⟨c, reached, opens, full, rfl⟩
      exact ⟨c, reached, opens, (full.symm.trans reached.keepsCount.unmatched).le, rfl⟩
  · obtain ⟨c, reached, opens, full, -⟩ := Parser.ofTokens_eq_nestingTooDeep_iff.mp refused
    have counts := reached.keepsCount
    have opening : c.Reads [c.peek] c.next := Cursor.reads_next (by simp [opens])
    obtain ⟨taken, -⟩ := counts.take_eq opening.rest opening.position
    -- With the parenthesis that is too many, the beginning has one more open than may be.
    have beyond : Token.unmatched (tokens.take c.next.position) = c.depth + 1 := by
      rw [taken, Token.unmatched, List.foldl_append, ← Token.unmatched, counts.unmatched]
      simp [Token.leavesOpen, opens]
    have within := bounded _ (List.take_prefix c.next.position tokens)
    rw [beyond] at within
    exact absurd within (Nat.not_le_of_lt (Nat.lt_succ_of_le full))

/-- Groups one after another are never too many, and one inside 256 others is. -/
example
    : let opening : Token := ⟨.openParen, "(", 3⟩
      let group : List Token := [opening, ⟨.nullKeyword, "null", 3⟩, ⟨.closeParen, ")", 3⟩]
      ofTokens (List.replicate 300 group).flatten
        = .ok (List.replicate 300 (.expression (.null 3) 3))
      ∧ ofTokens (List.replicate 257 opening) = .error (.nestingTooDeep 3) := by
  decide +kernel

end Program
end Reckoner
