import Reckoner.Proofs.Scanning.Lexeme

/-! Texts as lexemes with layout around them. The scan takes a text apart in exactly one way:
into the lexemes of a legible arrangement, none of which could be longer where it stands.
-/

namespace Reckoner

/-- A lexeme and the layout behind it. -/
structure Piece where
  lexeme : Lexeme
  gap : List Char

namespace Piece

def chars (piece : Piece) : List Char :=
  piece.lexeme.text.toList ++ piece.gap

/-- A lexeme is legible if it is spelled as its kind is, with nothing but layout behind it. -/
structure IsLegible (piece : Piece) : Prop where
  spelled : piece.lexeme.kind.IsSpelledBy piece.lexeme.text.toList
  blank : ∀ c ∈ piece.gap, isLayout c

/-- Two lexemes that would fuse have layout between them. -/
def StandsApart (piece next : Piece) : Prop :=
  piece.lexeme.kind.fusesWith next.lexeme.kind → piece.gap ≠ []

end Piece

/-- A text with its lexemes apart, and the layout in front of the first one. -/
structure Arrangement where
  lead : List Char
  pieces : List Piece

namespace Arrangement

def chars (a : Arrangement) : List Char :=
  a.lead ++ a.pieces.flatMap Piece.chars

/-- The line behind a number of pieces, by the newlines of the layout up to there. -/
def lineBehind (a : Arrangement) (count : Nat) : Nat :=
  1 + (a.lead ++ (a.pieces.take count).flatMap Piece.gap).count '\n'

/-- The tokens that the lexemes are on their lines, and the end token behind them. -/
def tokens (a : Arrangement) : List Token :=
  a.pieces.mapIdx (fun i piece => piece.lexeme.onLine (a.lineBehind i))
    ++ [Token.endOfInput (a.lineBehind a.pieces.length)]

/-- An arrangement is legible if all of its lexemes are, and none fuses with the next one. -/
structure IsLegible (a : Arrangement) : Prop where
  lead : ∀ c ∈ a.lead, isLayout c
  pieces : ∀ piece ∈ a.pieces, piece.IsLegible
  apart : a.pieces.IsChain Piece.StandsApart

end Arrangement

-----------------------------------------------------------------------------------------
-- What stands around a lexeme
-----------------------------------------------------------------------------------------

namespace Piece

/-- Nothing behind a lexeme goes on with it: layout does not, and neither does a lexeme that
stands apart from it.
-/
theorem IsLegible.not_continuedBy_head {piece : Piece} {after : List Piece}
    (legible : piece.IsLegible) (others : ∀ next ∈ after, next.IsLegible)
    (apart : ∀ next ∈ after.head?, piece.StandsApart next)
    : ∀ c ∈ (piece.gap ++ after.flatMap chars).head?,
        piece.lexeme.kind.continuedBy c = false := by
  intro c head
  by_cases empty : piece.gap = []
  · rw [empty, List.nil_append] at head
    rcases after with _ | ⟨next, after⟩
    · cases head
    · have spelled := (others next List.mem_cons_self).spelled
      rw [List.flatMap_cons, chars, List.append_assoc,
        List.head?_append_of_ne_nil _ spelled.ne_nil] at head
      rw [spelled.continuedBy_eq (List.mem_of_mem_head? head), ← Bool.not_eq_true]
      intro fuses
      exact apart next rfl fuses empty
  · rw [List.head?_append_of_ne_nil _ empty] at head
    exact TokenKind.not_continuedBy_of_isLayout
      (legible.blank c (List.mem_of_mem_head? head)) _

/-- Nothing in front of a lexeme is gone on with by it, for the same reasons. -/
theorem not_continuedBy_getLast {piece : Piece} {lead : List Char} {before : List Piece}
    (blank : ∀ c ∈ lead, isLayout c)
    (others : ∀ previous ∈ before, previous.IsLegible)
    (apart : ∀ previous ∈ before.getLast?, previous.StandsApart piece)
    : ∀ c ∈ (lead ++ before.flatMap chars).getLast?,
        piece.lexeme.kind.continuedBy c = false := by
  intro c last
  rcases before.eq_nil_or_concat with rfl | ⟨front, previous, rfl⟩
  · rw [List.flatMap_nil, List.append_nil] at last
    exact TokenKind.not_continuedBy_of_isLayout (blank c (List.mem_of_getLast? last)) _
  · have previousLegible := others previous (by simp)
    have standsApart := apart previous (by simp)
    rw [List.concat_eq_append, List.flatMap_append, List.flatMap_singleton, chars,
      ← List.append_assoc, ← List.append_assoc] at last
    by_cases empty : previous.gap = []
    · rw [empty, List.append_nil,
        List.getLast?_append_of_ne_nil _ previousLegible.spelled.ne_nil] at last
      rw [previousLegible.spelled.continuedBy_eq (List.mem_of_getLast? last),
        TokenKind.fusesWith_comm, ← Bool.not_eq_true]
      intro fuses
      exact standsApart fuses empty
    · rw [List.getLast?_append_of_ne_nil _ empty] at last
      exact TokenKind.not_continuedBy_of_isLayout
        (previousLegible.blank c (List.mem_of_getLast? last)) _

/-- The newlines of pieces are those of their layout, since no lexeme has any. -/
theorem count_newline_flatMap_chars {pieces : List Piece}
    (legible : ∀ piece ∈ pieces, piece.IsLegible)
    : (pieces.flatMap chars).count '\n' = (pieces.flatMap gap).count '\n' := by
  induction pieces with
  | nil => rfl
  | cons piece rest ih =>
      obtain ⟨first, others⟩ := List.forall_mem_cons.mp legible
      simp only [List.flatMap_cons, List.count_append, chars, first.spelled.count_newline,
        ih others, Nat.zero_add]

/-- Pieces spell their lexemes, each on the line behind the layout in front of it.
Witness: induction on the pieces. No run of the scan goes over the end of a lexeme.
-/
theorem spells_flatMap_chars {pieces : List Piece}
    (legible : ∀ piece ∈ pieces, piece.IsLegible) (apart : pieces.IsChain StandsApart)
    (line : Nat)
    : Spells line (pieces.flatMap chars)
        (pieces.mapIdx fun i piece =>
          piece.lexeme.onLine (line + ((pieces.take i).flatMap gap).count '\n'))
        (line + (pieces.flatMap gap).count '\n') := by
  induction pieces generalizing line with
  | nil => exact .nil line
  | cons piece rest ih =>
      obtain ⟨first, others⟩ := List.forall_mem_cons.mp legible
      obtain ⟨firstApart, othersApart⟩ := List.isChain_cons.mp apart
      have lexeme : Spells line piece.lexeme.text.toList [piece.lexeme.onLine line] line :=
        first.spelled.spells line
      have behind := Spells.gap_append first.blank
        (ih others othersApart (line + piece.gap.count '\n'))
      have whole := lexeme.append behind ?_
      · simpa only [List.flatMap_cons, chars, List.append_assoc, List.mapIdx_cons,
          List.take_zero, List.flatMap_nil, List.count_nil, Nat.add_zero,
          List.take_succ_cons, List.count_append, ← Nat.add_assoc,
          List.singleton_append] using whole
      · intro a last b head
        rw [(first.spelled.joins_eq (List.mem_of_getLast? last) b).1]
        exact first.not_continuedBy_head others firstApart b head

end Piece

-----------------------------------------------------------------------------------------
-- Scanning arrangements
-----------------------------------------------------------------------------------------

namespace Arrangement

/-- The text of a legible arrangement spells its tokens. -/
theorem IsLegible.scan_eq {a : Arrangement} (legible : a.IsLegible)
    : scan (String.ofList a.chars) = .ok a.tokens := by
  have pieces := Piece.spells_flatMap_chars legible.pieces legible.apart
    (1 + a.lead.count '\n')
  have whole : Spells 1 a.chars _ _ := Spells.gap_append legible.lead pieces
  rw [← String.toList_ofList (l := a.chars)] at whole
  refine scan_eq_ok_iff.mpr ⟨_, _, whole, ?_⟩
  simp only [tokens, lineBehind, List.take_length, List.count_append, Nat.add_assoc]

end Arrangement

/-- A lexeme stands apart from the first one of the arrangement behind it if the scan does not
join its run to the next one: without layout in front, that lexeme begins the next run.
-/
theorem Arrangement.IsLegible.standsApart_of_not_joins {a : Arrangement} {kind : TokenKind}
    {run : List Char} {rest : List (List Char)} (legible : a.IsLegible)
    (chars : a.chars = rest.flatten) (spelled : kind.IsSpelledBy run)
    (apart : ∀ behind ∈ rest.head?, ∃ ha hb, joins (run.getLast ha) (behind.head hb) = false)
    : ∀ next ∈ a.pieces.head?,
        Piece.StandsApart ⟨⟨kind, String.ofList run⟩, a.lead⟩ next := by
  intro next first fuses
  by_contra empty
  have empty : a.lead = [] := empty
  have nextSpelled := (legible.pieces next (List.mem_of_mem_head? first)).spelled
  obtain ⟨c, text, nextChars⟩ := List.exists_cons_of_ne_nil nextSpelled.ne_nil
  have begins : rest.flatten.head? = some c := by
    rw [← chars, Arrangement.chars, empty, List.eq_cons_of_mem_head? first]
    simp [Piece.chars, nextChars]
  rcases rest with _ | ⟨behind, rest⟩
  · cases begins
  · obtain ⟨_, nonempty, notJoined⟩ := apart behind rfl
    rw [List.flatten_cons, List.head?_append_of_ne_nil _ nonempty,
      List.head?_eq_some_head nonempty, Option.some.injEq] at begins
    rw [begins, (spelled.joins_eq (List.getLast_mem _) c).1,
      nextSpelled.continuedBy_eq (nextChars ▸ List.mem_cons_self) kind] at notJoined
    exact absurd fuses (by simp [notJoined])

/-- Runs that spell tokens are a legible arrangement, by induction on the runs. A token in
front has the layout that led the rest as its gap, and layout in front leads the rest.
-/
theorem RunsSpell.exists_isLegible {line last : Nat} {runs : List (List Char)}
    {tokens : List Token} (spell : RunsSpell line runs tokens last)
    (shaped : ∀ run ∈ runs, IsRun run)
    (apart : runs.IsChain fun a b => ∃ ha hb, joins (a.getLast ha) (b.head hb) = false)
    : ∃ a : Arrangement, a.IsLegible ∧ a.chars = runs.flatten := by
  induction spell with
  | nil line => exact ⟨⟨[], []⟩, ⟨by simp, by simp, .nil⟩, rfl⟩
  | @token line last run kind rest tokens token _ ih =>
      obtain ⟨isRun, shapes⟩ := List.forall_mem_cons.mp shaped
      obtain ⟨runApart, restApart⟩ := List.isChain_cons.mp apart
      obtain ⟨a, legible, chars⟩ := ih shapes restApart
      have spelled := TokenKind.isSpelledBy_iff.mpr ⟨isRun, token⟩
      let piece : Piece := { lexeme := ⟨kind, String.ofList run⟩, gap := a.lead }
      refine ⟨⟨[], piece :: a.pieces⟩, ⟨by simp, ?_, ?_⟩, ?_⟩
      · refine List.forall_mem_cons.mpr ⟨⟨?_, legible.lead⟩, legible.pieces⟩
        rwa [String.toList_ofList]
      · exact List.isChain_cons.mpr
          ⟨legible.standsApart_of_not_joins chars spelled runApart, legible.apart⟩
      · simp [piece, Arrangement.chars, Piece.chars, ← chars]
  | @layout line last run rest tokens _ blank _ ih =>
      obtain ⟨a, legible, chars⟩ := ih (List.forall_mem_cons.mp shaped).2 apart.tail
      refine ⟨⟨run ++ a.lead, a.pieces⟩, ⟨?_, legible.pieces, legible.apart⟩, ?_⟩
      · exact List.forall_mem_append.mpr ⟨blank, legible.lead⟩
      · rw [List.flatten_cons, ← chars, Arrangement.chars, Arrangement.chars,
          List.append_assoc]

/-- A source is scanned exactly if its characters are a legible arrangement, whose tokens the
scan gives.
-/
theorem scan_eq_ok_iff_exists_isLegible {source : String} {tokens : List Token}
    : scan source = .ok tokens
      ↔ ∃ a : Arrangement, a.IsLegible ∧ a.chars = source.toList ∧ a.tokens = tokens := by
  constructor
  · intro scanned
    obtain ⟨spelled, last, spell, _⟩ := scan_eq_ok_iff.mp scanned
    obtain ⟨a, legible, chars⟩ := RunsSpell.exists_isLegible spell
      (fun run => IsRun.of_mem_splitBy) (List.isChain_getLast_head_splitBy joins _)
    rw [List.flatten_splitBy] at chars
    have again := legible.scan_eq
    rw [chars, String.ofList_toList, scanned, Except.ok.injEq] at again
    exact ⟨a, legible, chars, again.symm⟩
  · intro arranged
    obtain ⟨a, legible, chars, rfl⟩ := arranged
    have scanned := legible.scan_eq
    rwa [chars, String.ofList_toList] at scanned

/-- A lexeme is maximal where it stands if its kind is spelled so, and neither the character
in front of it nor the one behind it would go on with it.
-/
structure Lexeme.IsMaximal (lexeme : Lexeme) (front behind : List Char) : Prop where
  spelled : lexeme.kind.IsSpelledBy lexeme.text.toList
  begins : ∀ c ∈ front.getLast?, lexeme.kind.continuedBy c = false
  ends : ∀ c ∈ behind.head?, lexeme.kind.continuedBy c = false

/-- An arrangement munches a text into tokens: it covers the text with nothing but layout
outside its lexemes, of which each is maximal and a token on the line behind the newlines in
front of it. Behind these there is one end token, the only one, on the last line of the text.
-/
structure Arrangement.Munches (a : Arrangement) (text : List Char) (tokens : List Token)
    : Prop where
  covers : a.chars = text
  blank : ∀ c ∈ a.lead ++ a.pieces.flatMap Piece.gap, isLayout c
  munched : ∀ before piece after, a.pieces = before ++ piece :: after →
    let front := a.lead ++ before.flatMap Piece.chars
    let behind := piece.gap ++ after.flatMap Piece.chars
    piece.lexeme.IsMaximal front behind
    ∧ tokens[before.length]? = some (piece.lexeme.onLine (1 + front.count '\n'))
  words : ∀ token ∈ tokens.dropLast, token.kind ≠ .endOfInput
  ended : tokens[a.pieces.length]? = some (Token.endOfInput (1 + text.count '\n'))
  length : tokens.length = a.pieces.length + 1

namespace Arrangement

/-- The line behind some pieces, by all newlines up to there. -/
theorem IsLegible.lineBehind_eq {a : Arrangement} (legible : a.IsLegible) (count : Nat)
    : a.lineBehind count
      = 1 + (a.lead ++ (a.pieces.take count).flatMap Piece.chars).count '\n' := by
  have pieces : ∀ piece ∈ a.pieces.take count, piece.IsLegible :=
    fun piece member => legible.pieces piece (List.mem_of_mem_take member)
  rw [lineBehind, List.count_append, List.count_append, Piece.count_newline_flatMap_chars pieces]

/-- A legible arrangement munches its text into its tokens. -/
theorem IsLegible.munches {a : Arrangement} (legible : a.IsLegible)
    : a.Munches a.chars a.tokens := by
  refine ⟨rfl, ?_, ?_, ?_, ?_, by simp [tokens]⟩
  · refine List.forall_mem_append.mpr ⟨legible.lead, ?_⟩
    intro c member
    obtain ⟨piece, found, inside⟩ := List.mem_flatMap.mp member
    exact (legible.pieces piece found).blank c inside
  · intro before piece after split front behind
    have pieces := legible.pieces
    have apart := legible.apart
    rw [split] at pieces apart
    obtain ⟨others, pieceLegible, afterLegible⟩ :=
      (List.forall_mem_append.trans (and_congr_right' List.forall_mem_cons)).mp pieces
    obtain ⟨_, afterApart, beforeApart⟩ := List.isChain_append.mp apart
    refine ⟨⟨pieceLegible.spelled, ?_, ?_⟩, ?_⟩
    · exact Piece.not_continuedBy_getLast legible.lead others
        fun previous last => beforeApart previous last piece rfl
    · exact pieceLegible.not_continuedBy_head afterLegible (List.isChain_cons.mp afterApart).1
    · have line := legible.lineBehind_eq before.length
      rw [split, List.take_left] at line
      rw [tokens, ← line, split, List.getElem?_append_left (by simp), List.getElem?_mapIdx]
      simp
  · intro token member
    rw [tokens, List.dropLast_concat] at member
    obtain ⟨i, bound, rfl⟩ := List.mem_mapIdx.mp member
    exact (legible.pieces _ (List.getElem_mem bound)).spelled.ne_endOfInput
  · have line := legible.lineBehind_eq a.pieces.length
    rw [List.take_length] at line
    simp only [tokens, chars, ← line]
    simp

end Arrangement

/-- The scan munches every source that it takes: into maximal runs of digits, maximal runs of
letters, of which only `let` and `null` are keywords, and signs, with layout between them.
-/
theorem scan_munches {source : String} {tokens : List Token} (scanned : scan source = .ok tokens)
    : ∃ a : Arrangement, a.Munches source.toList tokens := by
  obtain ⟨a, legible, chars, rfl⟩ := scan_eq_ok_iff_exists_isLegible.mp scanned
  exact ⟨a, chars ▸ legible.munches⟩

/-- Letters, digits and letters again are three tokens, the last of them a keyword. -/
theorem scan_munches_letters_digits_letters
    : let source := "abc12let\n*"
      let tokens : List Token :=
        [⟨.identifier, "abc", 1⟩, ⟨.number, "12", 1⟩, ⟨.letKeyword, "let", 1⟩,
          ⟨.operator, "*", 2⟩, ⟨.endOfInput, "", 2⟩]
      scan source = .ok tokens ∧ ∃ a : Arrangement, a.Munches source.toList tokens := by
  have scanned : scan "abc12let\n*"
      = .ok
          [⟨.identifier, "abc", 1⟩, ⟨.number, "12", 1⟩, ⟨.letKeyword, "let", 1⟩,
            ⟨.operator, "*", 2⟩, ⟨.endOfInput, "", 2⟩] := by
    rfl
  exact ⟨scanned, scan_munches scanned⟩

end Reckoner
