import Reckoner.Proofs.Scanning.Arrangement

/-! Tokens written out and scanned again. Any legible arrangement is scanned as the tokens it
is made of, and so are the tokens of a source with single spaces between them.
-/

namespace Reckoner

/-- The texts of spelled tokens with spaces between them spell these tokens on one line.
Witness: induction on the tokens; a space joins nothing.
-/
theorem spells_intercalate {tokens : List Token}
    (spelled : ∀ token ∈ tokens, token.kind.IsSpelledBy token.text.toList)
    : Spells 1 (" ".intercalate (tokens.map Token.text)).toList
        (tokens.map fun token => token.lexeme.onLine 1) 1 := by
  have alone : standsAlone ' ' := rfl
  rw [String.toList_intercalate, List.map_map]
  induction tokens with
  | nil => exact .nil 1
  | cons token rest ih =>
      obtain ⟨first, others⟩ := List.forall_mem_cons.mp spelled
      have word : Spells 1 token.text.toList [token.lexeme.onLine 1] 1 := first.spells 1
      rcases rest with _ | ⟨next, rest⟩
      · simpa using word
      · have space : Spells 1 [' '] [] 1 := Spells.layout alone rfl 1
        have whole := word.append_of_head alone (space.cons alone (ih others))
        simpa [List.intercalate_cons_cons] using whole

/-- A space at the end changes no token. -/
theorem Spells.append_space {line last : Nat} {chars : List Char} {tokens : List Token}
    (spell : Spells line chars tokens last)
    : Spells line (chars ++ [' ']) tokens last := by
  have space : Spells last [' '] [] last := Spells.layout rfl rfl last
  have whole := spell.append_of_head rfl space
  rwa [List.append_nil] at whole

/-- Tokens written out are scanned as themselves. Legible lexemes with any layout between them
give their tokens on their lines; and the texts of the tokens of any source, with or without
the empty one of the end token, give these tokens on one line if single spaces join them.
-/
theorem Arrangement.scan_reads_back
    : (∀ a : Arrangement, a.IsLegible → scan (String.ofList a.chars) = .ok a.tokens)
      ∧ ∀ (source : String) (tokens : List Token), scan source = .ok tokens →
        let words := tokens.filter (·.kind ≠ .endOfInput)
        let again := tokens.map fun token => token.lexeme.onLine 1
        scan (" ".intercalate (words.map Token.text)) = .ok again
        ∧ scan (" ".intercalate (tokens.map Token.text)) = .ok again := by
  refine ⟨fun a legible => legible.scan_eq, ?_⟩
  intro source tokens scanned words again
  obtain ⟨spelled, last, spell, rfl⟩ := scan_eq_ok_iff.mp scanned
  have shape := spell.isSpelledBy
  have spaced := spells_intercalate shape
  have words_eq : words = spelled := by
    have kept : spelled.filter (·.kind ≠ .endOfInput) = spelled :=
      List.filter_eq_self.mpr fun token member =>
        decide_eq_true (shape token member).ne_endOfInput
    simp only [words, List.filter_append, kept]
    exact List.append_nil _
  have again_eq
      : again = (spelled.map fun token => token.lexeme.onLine 1) ++ [.endOfInput 1] := by
    simp [again, Token.lexeme, Lexeme.onLine, Token.endOfInput]
  constructor
  · rw [words_eq, again_eq]
    exact scan_eq_ok_iff.mpr ⟨_, 1, spaced, rfl⟩
  · rw [again_eq, List.map_append]
    rcases spelled with _ | ⟨first, rest⟩
    · rfl
    · refine scan_eq_ok_iff.mpr ⟨_, 1, ?_, rfl⟩
      rw [List.map_singleton, String.intercalate_append_of_ne_nil (by simp) (by simp)]
      simpa [Token.endOfInput] using spaced.append_space

/-- A keyword, a number right behind it, and a name on the next line, behind a blank one. -/
theorem Arrangement.scan_reads_back_keyword_number_name
    : let a : Arrangement :=
        { lead := ['\n']
          pieces := [⟨⟨.letKeyword, "let"⟩, []⟩, ⟨⟨.number, "3"⟩, ['\n']⟩,
            ⟨⟨.identifier, "lets"⟩, [' ']⟩] }
      let tokens : List Token :=
        [⟨.letKeyword, "let", 2⟩, ⟨.number, "3", 2⟩, ⟨.identifier, "lets", 3⟩,
          ⟨.endOfInput, "", 3⟩]
      a.IsLegible
      ∧ scan "\nlet3\nlets " = .ok tokens
      ∧ scan "let 3 lets" = .ok (tokens.map fun token => token.lexeme.onLine 1) := by
  intro a tokens
  have lets : ∀ c ∈ ['l', 'e', 't', 's'], Text.isLetter c := List.all_eq_true.mp rfl
  have legible : a.IsLegible := by
    refine ⟨by simp [a, isLayout], ?_, ?_⟩
    · simp only [a, List.forall_mem_cons]
      refine ⟨⟨rfl, by simp⟩, ⟨⟨by simp, by simp⟩, by simp [isLayout]⟩,
        ⟨⟨by simp, lets, by simp, by simp⟩, by simp [isLayout]⟩, by simp⟩
    · simp [a, Piece.StandsApart, TokenKind.fusesWith, TokenKind.isWord]
  have scanned : scan "\nlet3\nlets " = .ok tokens := Arrangement.scan_reads_back.1 a legible
  exact ⟨legible, scanned, (Arrangement.scan_reads_back.2 _ tokens scanned).1⟩

end Reckoner
