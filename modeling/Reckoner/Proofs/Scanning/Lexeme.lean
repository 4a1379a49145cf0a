import Reckoner.Proofs.Scanning.Spelling

/-! Lexemes are tokens apart from their lines. The kind of a lexeme fixes how it is spelled,
and which characters would go on with it where it stands.
-/

namespace Reckoner

/-- A kind of token with the text of one. -/
structure Lexeme where
  kind : TokenKind
  text : String
  deriving DecidableEq

/-- What a token is, apart from the line it stands on. -/
def Token.lexeme (token : Token) : Lexeme :=
  { kind := token.kind, text := token.text }

/-- The token that a lexeme is on a line. -/
def Lexeme.onLine (lexeme : Lexeme) (line : Nat) : Token :=
  { kind := lexeme.kind, text := lexeme.text, line := line }

theorem Operator.standsAlone_character (op : Operator)
    : standsAlone op.character := by
  cases op <;> rfl

theorem Operator.signKind?_character (op : Operator)
    : signKind? op.character = some .operator := by
  cases op <;> rfl

namespace TokenKind

/-- The kinds that runs of letters have. -/
def isWord : TokenKind → Bool
  | identifier | nullKeyword | letKeyword => true
  | number | operator | equals | openParen | closeParen | endOfInput => false

/-- Whether characters spell a token of a kind. Every keyword and every sign is its own
spelling, and nothing spells an end token.
-/
def IsSpelledBy : TokenKind → List Char → Prop
  | number, chars => chars ≠ [] ∧ ∀ c ∈ chars, c.isDigit
  | identifier, chars =>
      chars ≠ [] ∧ (∀ c ∈ chars, Text.isLetter c)
      ∧ chars ≠ ['l', 'e', 't'] ∧ chars ≠ ['n', 'u', 'l', 'l']
  | nullKeyword, chars => chars = ['n', 'u', 'l', 'l']
  | letKeyword, chars => chars = ['l', 'e', 't']
  | operator, chars => ∃ op : Operator, chars = [op.character]
  | equals, chars => chars = ['=']
  | openParen, chars => chars = ['(']
  | closeParen, chars => chars = [')']
  | endOfInput, _ => False

/-- Whether a character would go on with a token of a kind: a digit with a number, a letter
with a word.
-/
def continuedBy (kind : TokenKind) (c : Char) : Bool :=
  (kind = number && c.isDigit) || (kind.isWord && Text.isLetter c)

/-- Whether two neighbouring tokens need layout between them: two numbers or two words. -/
def fusesWith (kind other : TokenKind) : Bool :=
  (kind = number && other = number) || (kind.isWord && other.isWord)

theorem isSpelledBy_wordKind {chars : List Char} (nonempty : chars ≠ [])
    (letters : ∀ c ∈ chars, Text.isLetter c)
    : (wordKind chars).IsSpelledBy chars := by
  unfold wordKind
  split
  · next keyword => exact keyword
  · next notNull =>
      split
      · next keyword => exact keyword
      · next notLet => exact ⟨nonempty, letters, notLet, notNull⟩

theorem isSpelledBy_of_signKind? {c : Char} {kind : TokenKind} (sign : signKind? c = some kind)
    : kind.IsSpelledBy [c] := by
  unfold signKind? at sign
  split at sign <;> cases sign
  · exact ⟨.add, rfl⟩
  · exact ⟨.sub, rfl⟩
  · exact ⟨.mul, rfl⟩
  · exact ⟨.div, rfl⟩
  · exact ⟨.rem, rfl⟩
  all_goals exact rfl

/-- Characters spell a token exactly if they are a run that the scan gives the kind of. -/
theorem isSpelledBy_iff {kind : TokenKind} {chars : List Char}
    : kind.IsSpelledBy chars ↔ IsRun chars ∧ runKind? chars = some kind := by
  constructor
  · intro spelled
    cases kind with
    | number =>
        obtain ⟨nonempty, digits⟩ := spelled
        exact ⟨.digits nonempty digits, runKind?_of_digits nonempty digits⟩
    | identifier =>
        obtain ⟨nonempty, letters, notLet, notNull⟩ := spelled
        refine ⟨.letters nonempty letters, ?_⟩
        rw [runKind?_of_letters nonempty letters, wordKind, if_neg notNull, if_neg notLet]
    | nullKeyword | letKeyword =>
        cases spelled
        exact ⟨.letters (by simp) (List.all_eq_true.mp rfl), rfl⟩
    | operator =>
        obtain ⟨op, rfl⟩ := spelled
        have alone := op.standsAlone_character
        exact ⟨.single alone, runKind?_singleton alone ▸ op.signKind?_character⟩
    | equals | openParen | closeParen =>
        cases spelled
        exact ⟨.single rfl, rfl⟩
    | endOfInput => cases spelled
  · rintro ⟨isRun, token⟩
    cases isRun with
    | digits nonempty digits =>
        obtain rfl := Option.some.inj ((runKind?_of_digits nonempty digits).symm.trans token)
        exact ⟨nonempty, digits⟩
    | letters nonempty letters =>
        obtain rfl := Option.some.inj ((runKind?_of_letters nonempty letters).symm.trans token)
        exact isSpelledBy_wordKind nonempty letters
    | single alone =>
        rw [runKind?_singleton alone] at token
        exact isSpelledBy_of_signKind? token

namespace IsSpelledBy

variable {kind : TokenKind} {chars : List Char}

theorem ne_nil (spelled : kind.IsSpelledBy chars)
    : chars ≠ [] := by
  rintro rfl
  exact absurd (isSpelledBy_iff.mp spelled).2 (by simp [runKind?])

theorem ne_endOfInput (spelled : kind.IsSpelledBy chars)
    : kind ≠ endOfInput := by
  rintro rfl
  exact spelled

theorem count_newline (spelled : kind.IsSpelledBy chars)
    : chars.count '\n' = 0 :=
  have ⟨isRun, token⟩ := isSpelledBy_iff.mp spelled
  isRun.count_newline token

/-- The characters of a token spell it and nothing else, whichever line they stand on. -/
theorem spells {text : String} (spelled : kind.IsSpelledBy text.toList) (line : Nat)
    : Spells line text.toList [{ kind := kind, text := text, line := line }] line := by
  obtain ⟨isRun, token⟩ := isSpelledBy_iff.mp spelled
  have spell := Spells.run isRun token line
  rwa [String.ofList_toList] at spell

/-- The characters of a number are digits, those of words letters, and signs are neither. -/
theorem isDigit_isLetter_eq (spelled : kind.IsSpelledBy chars) {c : Char} (member : c ∈ chars)
    : c.isDigit = decide (kind = number) ∧ Text.isLetter c = kind.isWord := by
  obtain ⟨isRun, token⟩ := isSpelledBy_iff.mp spelled
  cases isRun with
  | digits nonempty digits =>
      obtain rfl := Option.some.inj ((runKind?_of_digits nonempty digits).symm.trans token)
      exact ⟨digits c member, isLetter_of_isDigit (digits c member)⟩
  | letters nonempty letters =>
      rw [runKind?_of_letters nonempty letters, Option.some.injEq] at token
      have word : kind.isWord ∧ kind ≠ number := by
        rw [← token, wordKind]
        split
        · simp [isWord]
        · split <;> simp [isWord]
      simp only [letters c member, isDigit_of_isLetter (letters c member), word.1, word.2,
        decide_false, and_self]
  | @single sign alone =>
      obtain rfl := List.mem_singleton.mp member
      rw [runKind?_singleton alone] at token
      unfold signKind? at token
      simp only [standsAlone, Bool.and_eq_true, Bool.not_eq_true'] at alone
      rw [alone.1, alone.2]
      split at token <;> cases token <;> exact ⟨rfl, rfl⟩

/-- Where a token stands, the scan joins to it the characters that would go on with it. -/
theorem joins_eq (spelled : kind.IsSpelledBy chars) {a : Char} (member : a ∈ chars) (c : Char)
    : joins a c = kind.continuedBy c ∧ joins c a = kind.continuedBy c := by
  obtain ⟨digit, letter⟩ := spelled.isDigit_isLetter_eq member
  simp only [joins, continuedBy, digit, letter, Bool.and_comm, and_self]

/-- A token is gone on with by a character of another one exactly if the two fuse. -/
theorem continuedBy_eq (spelled : kind.IsSpelledBy chars) {c : Char} (member : c ∈ chars)
    (other : TokenKind)
    : other.continuedBy c = other.fusesWith kind := by
  obtain ⟨digit, letter⟩ := spelled.isDigit_isLetter_eq member
  rw [continuedBy, fusesWith, digit, letter]

end IsSpelledBy

theorem fusesWith_comm (kind other : TokenKind)
    : kind.fusesWith other = other.fusesWith kind := by
  simp only [fusesWith, Bool.and_comm]

end TokenKind

theorem Spells.isSpelledBy {line last : Nat} {chars : List Char} {tokens : List Token}
    (spell : Spells line chars tokens last)
    : ∀ token ∈ tokens, token.kind.IsSpelledBy token.text.toList := by
  intro token member
  obtain ⟨run, found, kind, text⟩ := RunsSpell.exists_run spell token member
  rw [text, String.toList_ofList]
  exact TokenKind.isSpelledBy_iff.mpr ⟨.of_mem_splitBy found, kind⟩

-----------------------------------------------------------------------------------------
-- Layout
-----------------------------------------------------------------------------------------

theorem standsAlone_of_isLayout {c : Char} (blank : isLayout c)
    : standsAlone c := by
  simp only [isLayout, Bool.or_eq_true, beq_iff_eq] at blank
  rcases blank with (rfl | rfl) | rfl <;> rfl

theorem TokenKind.not_continuedBy_of_isLayout {c : Char} (blank : isLayout c) (kind : TokenKind)
    : kind.continuedBy c = false := by
  have alone := standsAlone_of_isLayout blank
  simp only [standsAlone, Bool.and_eq_true, Bool.not_eq_true'] at alone
  simp only [continuedBy, alone, Bool.and_false, Bool.or_self]

/-- Layout in front spells nothing, and moves what is behind it down by its newlines.
Witness: induction on the layout, one character at a time.
-/
theorem Spells.gap_append {line last : Nat} {gap more : List Char} {tokens : List Token}
    (blank : ∀ c ∈ gap, isLayout c) (behind : Spells (line + gap.count '\n') more tokens last)
    : Spells line (gap ++ more) tokens last := by
  induction gap generalizing line with
  | nil => exact behind
  | cons c gap ih =>
      obtain ⟨first, others⟩ := List.forall_mem_cons.mp blank
      have alone := standsAlone_of_isLayout first
      refine (Spells.layout alone first line).cons alone (ih others ?_)
      rwa [Nat.add_assoc, ← List.count_append]

end Reckoner
