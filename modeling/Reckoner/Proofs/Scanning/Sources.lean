import Reckoner.Proofs.Scanning.Spelling
import Reckoner.Session

/-! Sources that spell programs: those whose characters spell the tokens of a derivation. -/

namespace Reckoner

/-- No run spells an end token, which stands only behind all runs. -/
theorem runKind?_ne_endOfInput (run : List Char)
    : runKind? run ≠ some .endOfInput := by
  cases run with
  | nil => simp [runKind?]
  | cons first rest =>
      simp only [runKind?, wordKind, signKind?]
      repeat' split
      all_goals simp

theorem RunsSpell.kind_ne_endOfInput {line last : Nat} {runs : List (List Char)}
    {tokens : List Token} (spell : RunsSpell line runs tokens last)
    : ∀ token ∈ tokens, token.kind ≠ .endOfInput := by
  induction spell with
  | nil line => simp
  | @token _ _ run kind _ _ spells _ ih =>
      refine List.forall_mem_cons.mpr ⟨?_, ih⟩
      intro ends
      have ends : kind = .endOfInput := ends
      exact runKind?_ne_endOfInput run (ends ▸ spells)
  | layout _ _ _ ih => exact ih

theorem Spells.beforeEnd {line last : Nat} {chars : List Char} {tokens : List Token}
    (spell : Spells line chars tokens last)
    : Token.beforeEnd (tokens ++ [Token.endOfInput last]) = tokens := by
  have words : ∀ token ∈ tokens, decide (token.kind ≠ .endOfInput) = true := by
    intro token member
    exact decide_eq_true (RunsSpell.kind_ne_endOfInput spell token member)
  rw [Token.beforeEnd, List.takeWhile_append_of_pos words]
  simp [Token.endOfInput]

/-- A source is a program exactly if it spells the tokens of a derivation of the program. -/
theorem Program.ofSource_eq_ok_iff {source : String} {program : Program}
    : ofSource source = .ok program
      ↔ ∃ (derivation : Derivation) (last : Nat),
          Spells 1 source.toList derivation.tokens last
          ∧ derivation.program = program
          ∧ derivation.WithinLimit := by
  have staged
      : ofSource source = .ok program
        ↔ ∃ tokens, scan source = .ok tokens ∧ ofTokens tokens = .ok program := by
    rw [ofSource]
    cases scan source with
    | error error => simp
    | ok tokens =>
        cases parsed : ofTokens tokens <;> simp [Except.mapError, parsed]
  rw [staged]
  constructor
  · intro parsed
    obtain ⟨tokens, scanned, parsed⟩ := parsed
    obtain ⟨spelled, last, spell, rfl⟩ := scan_eq_ok_iff.mp scanned
    obtain ⟨derivation, derived, stands, within⟩ := ofTokens_eq_ok_iff.mp parsed
    rw [spell.beforeEnd] at derived
    exact ⟨derivation, last, derived ▸ spell, stands, within⟩
  · intro spelled
    obtain ⟨derivation, last, spell, stands, within⟩ := spelled
    exact ⟨_, scan_eq_ok_iff.mpr ⟨_, last, spell, rfl⟩,
      ofTokens_eq_ok_iff.mpr ⟨derivation, spell.beforeEnd.symm, stands, within⟩⟩

end Reckoner
