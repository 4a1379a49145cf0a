import Reckoner.Proofs.Scanning.Lexeme

/-! What the scan refuses. A character is foreign if no token and no layout holds it; the scan
gets through everything in front of the first foreign character, and blames that one on its
line.
-/

namespace Reckoner

/-- The characters that are tokens by themselves. -/
def signs : List Char :=
  ['+', '-', '*', '/', '%', '=', '(', ')']

/-- A foreign character is neither layout, a digit, a letter nor a sign. -/
def isForeign (c : Char) : Bool :=
  !(isLayout c || c.isDigit || Text.isLetter c || signs.contains c)

theorem signKind?_eq_none_of_not_mem {c : Char} (absent : c ∉ signs)
    : signKind? c = none := by
  unfold signKind?
  split
  case h_9 => rfl
  all_goals simp [signs] at absent

theorem exists_signKind? {c : Char} (sign : c ∈ signs)
    : ∃ kind, signKind? c = some kind := by
  have kinds : signs.all fun c => (signKind? c).isSome := rfl
  exact Option.isSome_iff_exists.mp (List.all_eq_true.mp kinds c sign)

/-- A foreign character stands alone, spells no token and is no layout. -/
theorem standsAlone_of_isForeign {c : Char} (foreign : isForeign c)
    : standsAlone c ∧ runKind? [c] = none ∧ isLayout c = false := by
  simp only [isForeign, Bool.not_eq_true', Bool.or_eq_false_iff, List.contains_eq_mem,
    decide_eq_false_iff_not] at foreign
  obtain ⟨⟨⟨noLayout, noDigit⟩, noLetter⟩, noSign⟩ := foreign
  have alone : standsAlone c := by simp [standsAlone, noDigit, noLetter]
  rw [runKind?_singleton alone]
  exact ⟨alone, signKind?_eq_none_of_not_mem noSign, noLayout⟩

/-- A character that stands alone and is not foreign is layout or spells a token. -/
theorem isLayout_or_exists_kind {c : Char} (alone : standsAlone c)
    (native : isForeign c = false)
    : isLayout c ∨ ∃ kind, runKind? [c] = some kind := by
  rw [runKind?_singleton alone]
  simp only [standsAlone, Bool.and_eq_true, Bool.not_eq_true'] at alone
  simp only [isForeign, alone, Bool.or_false, Bool.not_eq_false', Bool.or_eq_true,
    List.contains_iff_mem] at native
  exact native.imp_right exists_signKind?

/-- Runs without foreign characters spell some tokens, by induction on the runs. -/
theorem RunsSpell.exists_of_native {runs : List (List Char)} (shaped : ∀ run ∈ runs, IsRun run)
    (native : ∀ run ∈ runs, ∀ c ∈ run, isForeign c = false) (line : Nat)
    : ∃ tokens last, RunsSpell line runs tokens last := by
  induction runs generalizing line with
  | nil => exact ⟨[], line, .nil line⟩
  | cons run rest ih =>
      obtain ⟨shape, shapes⟩ := List.forall_mem_cons.mp shaped
      obtain ⟨runNative, restNative⟩ := List.forall_mem_cons.mp native
      have token {kind : TokenKind} (spells : runKind? run = some kind)
          : ∃ tokens last, RunsSpell line (run :: rest) tokens last := by
        obtain ⟨tokens, last, behind⟩ := ih shapes restNative line
        exact ⟨_, last, .token spells behind⟩
      cases shape with
      | digits nonempty digits => exact token (runKind?_of_digits nonempty digits)
      | letters nonempty letters => exact token (runKind?_of_letters nonempty letters)
      | @single c alone =>
          obtain blank | ⟨kind, spells⟩ :=
            isLayout_or_exists_kind alone (runNative c List.mem_cons_self)
          · obtain ⟨tokens, last, behind⟩ := ih shapes restNative (line + [c].count '\n')
            have layout : RunsSpell line [[c]] [] _ := Spells.layout alone blank line
            exact ⟨tokens, last, layout.append behind⟩
          · exact token spells

/-- Characters of which none is foreign spell some tokens. -/
theorem Spells.exists_of_native {chars : List Char} (native : ∀ c ∈ chars, isForeign c = false)
    (line : Nat)
    : ∃ tokens last, Spells line chars tokens last := by
  refine RunsSpell.exists_of_native (fun run => IsRun.of_mem_splitBy) ?_ line
  intro run member c inside
  refine native c ?_
  rw [← List.flatten_splitBy joins chars]
  exact List.mem_flatten_of_mem member inside

/-- The scan gets through runs that spell tokens, and goes on behind them on the line where it
has arrived.
-/
theorem RunsSpell.scanRuns_append {line last : Nat} {runs : List (List Char)}
    {tokens : List Token} (spell : RunsSpell line runs tokens last) (found : List Token)
    (more : List (List Char))
    : scanRuns line found (runs ++ more) = scanRuns last (tokens.reverse ++ found) more := by
  induction spell generalizing found with
  | nil line => rfl
  | token spells _ ih => simp [scanRuns, spells, ih]
  | @layout _ _ run _ _ silent blank _ ih =>
      have passed : run.find? (! isLayout ·) = none :=
        List.find?_eq_none.mpr fun c member => by simp [blank c member]
      simp only [List.cons_append, scanRuns, silent, passed, ih]

/-- The scan stops at a foreign character behind characters of which none is foreign: it joins
none of these, so it is a run by itself.
-/
theorem scan_of_foreign {source : String} {front behind : List Char} {c : Char}
    (split : source.toList = front ++ c :: behind) (native : ∀ d ∈ front, isForeign d = false)
    (foreign : isForeign c)
    : scan source = .error { character := c, line := 1 + front.count '\n' } := by
  obtain ⟨tokens, last, spell⟩ := Spells.exists_of_native native 1
  obtain ⟨alone, silent, strange⟩ := standsAlone_of_isForeign foreign
  rw [scan, split, splitBy_append_cons_of_standsAlone alone, RunsSpell.scanRuns_append spell,
    spell.last_eq]
  simp [scanRuns, silent, strange]

/-- Of foreign characters one is the first. -/
theorem exists_first_foreign {chars : List Char} (foreign : ∃ c ∈ chars, isForeign c)
    : ∃ front c behind,
        chars = front ++ c :: behind ∧ (∀ d ∈ front, isForeign d = false) ∧ isForeign c := by
  obtain ⟨c, found⟩ := Option.isSome_iff_exists.mp (List.find?_isSome.mpr foreign)
  obtain ⟨isForeign, front, behind, split, native⟩ := List.find?_eq_some_iff_append.mp found
  exact ⟨front, c, behind, split, by simpa using native, isForeign⟩

/-- The scan refuses no source without foreign characters. -/
theorem exists_foreign_of_scan_eq_error {source : String} {error : LexicalError}
    (failed : scan source = .error error)
    : ∃ c ∈ source.toList, isForeign c := by
  by_contra native
  simp only [not_exists, not_and, Bool.not_eq_true] at native
  obtain ⟨tokens, last, spell⟩ := Spells.exists_of_native native 1
  rw [scan_eq_ok_iff.mpr ⟨tokens, last, spell, rfl⟩] at failed
  cases failed

/-- The scan fails exactly on sources with foreign characters, and blames the first one, on the
line behind the newlines in front of it, whatever else stands there or follows.
-/
theorem scan_blames_first_foreign (source : String)
    : ((∃ error, scan source = .error error) ↔ ∃ c ∈ source.toList, isForeign c)
      ∧ ∀ error, scan source = .error error ↔
          ∃ front behind,
            source.toList = front ++ error.character :: behind
            ∧ (∀ c ∈ front, isForeign c = false)
            ∧ isForeign error.character
            ∧ error.line = 1 + front.count '\n' := by
  refine ⟨⟨?_, fun foreign => ?_⟩, fun error => ⟨fun failed => ?_, ?_⟩⟩
  · rintro ⟨error, failed⟩
    exact exists_foreign_of_scan_eq_error failed
  · obtain ⟨front, c, behind, split, native, foreign⟩ := exists_first_foreign foreign
    exact ⟨_, scan_of_foreign split native foreign⟩
  · obtain ⟨front, c, behind, split, native, foreign⟩ :=
      exists_first_foreign (exists_foreign_of_scan_eq_error failed)
    rw [scan_of_foreign split native foreign, Except.error.injEq] at failed
    subst failed
    exact ⟨front, behind, split, native, foreign, rfl⟩
  · rintro ⟨front, behind, split, native, foreign, line⟩
    rw [scan_of_foreign split native foreign, ← line]

/-- A carriage return is foreign, also right behind a word. -/
example : scan "1\n\n let\r$" = .error { character := '\r', line := 3 } := by
  decide +kernel

end Reckoner
