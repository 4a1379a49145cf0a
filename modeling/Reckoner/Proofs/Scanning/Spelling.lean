import Reckoner.Proofs.Lines.Mapping
import Reckoner.Proofs.Scanning.Runs

/-! What characters spell. The judgment says which tokens the scan finds in them and on which
line it arrives, for characters that stand anywhere in a source, so that it can be composed
wherever no token goes over the joint.
-/

namespace Reckoner

/-- Runs that begin on a line spell tokens and end on another line. -/
inductive RunsSpell : Nat → List (List Char) → List Token → Nat → Prop
  | nil (line : Nat)
    : RunsSpell line [] [] line
  | token {line last : Nat} {run : List Char} {kind : TokenKind} {rest : List (List Char)}
    {tokens : List Token} (spells : runKind? run = some kind)
    (behind : RunsSpell line rest tokens last)
    : RunsSpell line (run :: rest)
        ({ kind := kind, text := String.ofList run, line := line } :: tokens) last
  | layout {line last : Nat} {run : List Char} {rest : List (List Char)}
    {tokens : List Token} (silent : runKind? run = none) (blank : ∀ c ∈ run, isLayout c)
    (behind : RunsSpell (line + run.count '\n') rest tokens last)
    : RunsSpell line (run :: rest) tokens last

namespace RunsSpell

variable {line middle last : Nat} {runs more : List (List Char)} {tokens others : List Token}

/-- A run that is a token spells it in front of what the other runs spell. -/
theorem cons_iff_of_token {run : List Char} {kind : TokenKind}
    (spells : runKind? run = some kind)
    : RunsSpell line (run :: runs) tokens last
      ↔ ∃ behind,
          tokens = { kind := kind, text := String.ofList run, line := line } :: behind
          ∧ RunsSpell line runs behind last := by
  constructor
  · intro spell
    cases spell with
    | token spells' behind =>
        obtain rfl := Option.some.inj (spells.symm.trans spells')
        exact ⟨_, rfl, behind⟩
    | layout silent => cases spells.symm.trans silent
  · rintro ⟨tokens, rfl, behind⟩
    exact .token spells behind

/-- A run that is no token has to be layout, and the other runs spell everything. -/
theorem cons_iff_of_layout {run : List Char} (silent : runKind? run = none)
    : RunsSpell line (run :: runs) tokens last
      ↔ (∀ c ∈ run, isLayout c) ∧ RunsSpell (line + run.count '\n') runs tokens last := by
  constructor
  · intro spell
    cases spell with
    | token spells => cases silent.symm.trans spells
    | layout _ blank behind => exact ⟨blank, behind⟩
  · rintro ⟨blank, behind⟩
    exact .layout silent blank behind

theorem append (first : RunsSpell line runs tokens middle)
    (second : RunsSpell middle more others last)
    : RunsSpell line (runs ++ more) (tokens ++ others) last := by
  induction first with
  | nil line => exact second
  | token spells _ ih => exact .token spells (ih second)
  | layout silent blank _ ih => exact .layout silent blank (ih second)

/-- What runs spell moves down with the line they begin on, by induction on the runs. -/
theorem shift (spell : RunsSpell line runs tokens last) (lines : Nat)
    : RunsSpell (line + lines) runs (tokens.map (Token.mapLine (· + lines)))
        (last + lines) := by
  induction spell with
  | nil line => exact .nil _
  | token spells _ ih => exact .token spells ih
  | layout silent blank _ ih =>
      refine .layout silent blank ?_
      rwa [Nat.add_right_comm]

/-- The scan arrives on the line behind all newlines, none of which stands in a token. -/
theorem last_eq (spell : RunsSpell line runs tokens last) (shaped : ∀ run ∈ runs, IsRun run)
    : last = line + runs.flatten.count '\n' := by
  induction spell with
  | nil line => rfl
  | token spells _ ih =>
      have shapes := List.forall_mem_cons.mp shaped
      rw [List.flatten_cons, List.count_append, shapes.1.count_newline spells, Nat.zero_add,
        ih shapes.2]
  | layout silent blank _ ih =>
      have shapes := List.forall_mem_cons.mp shaped
      rw [List.flatten_cons, List.count_append, ih shapes.2, Nat.add_assoc]

/-- Every token stands on a line from the first to the last. -/
theorem line_le (spell : RunsSpell line runs tokens last)
    : line ≤ last ∧ ∀ token ∈ tokens, line ≤ token.line ∧ token.line ≤ last := by
  induction spell with
  | nil line => simp
  | token spells _ ih =>
      refine ⟨ih.1, List.forall_mem_cons.mpr ⟨⟨Nat.le_refl _, ih.1⟩, ih.2⟩⟩
  | layout silent blank _ ih =>
      refine ⟨by omega, ?_⟩
      intro token member
      have within := ih.2 token member
      omega

/-- Every token is spelled by one of the runs. -/
theorem exists_run (spell : RunsSpell line runs tokens last)
    : ∀ token ∈ tokens,
        ∃ run ∈ runs, runKind? run = some token.kind ∧ token.text = String.ofList run := by
  induction spell with
  | nil line => simp
  | token spells _ ih =>
      refine List.forall_mem_cons.mpr ⟨⟨_, List.mem_cons_self, spells, rfl⟩, ?_⟩
      intro token member
      obtain ⟨run, found, token⟩ := ih token member
      exact ⟨run, List.mem_cons_of_mem _ found, token⟩
  | layout silent blank _ ih =>
      intro token member
      obtain ⟨run, found, token⟩ := ih token member
      exact ⟨run, List.mem_cons_of_mem _ found, token⟩

end RunsSpell

/-- The scan of runs succeeds exactly if they spell tokens, and puts these behind those found
before and an end token behind all. Witness: induction on the runs.
-/
theorem scanRuns_eq_ok_iff {line : Nat} {found tokens : List Token}
    {runs : List (List Char)}
    : scanRuns line found runs = .ok tokens
      ↔ ∃ spelled last,
          RunsSpell line runs spelled last
          ∧ tokens = found.reverse ++ spelled ++ [Token.endOfInput last] := by
  induction runs generalizing line found with
  | nil =>
      simp only [scanRuns, List.reverse_cons, Except.ok.injEq]
      constructor
      · intro ended
        exact ⟨[], line, .nil line, by simp [← ended]⟩
      · intro ended
        obtain ⟨spelled, last, spell, rfl⟩ := ended
        cases spell
        simp
  | cons run rest ih =>
      cases spells : runKind? run with
      | some kind =>
          simp only [scanRuns, spells, ih, RunsSpell.cons_iff_of_token spells]
          constructor
          · rintro ⟨spelled, last, spell, rfl⟩
            exact ⟨_, last, ⟨spelled, rfl, spell⟩, by simp⟩
          · rintro ⟨_, last, ⟨spelled, rfl, spell⟩, rfl⟩
            exact ⟨spelled, last, spell, by simp⟩
      | none =>
          simp only [scanRuns, spells, RunsSpell.cons_iff_of_layout spells]
          cases met : run.find? (! isLayout ·) with
          | some character =>
              have strange : ¬ ∀ c ∈ run, isLayout c := by
                intro blank
                have found := List.find?_some met
                rw [blank character (List.mem_of_find?_eq_some met)] at found
                cases found
              simp [strange]
          | none =>
              have blank : ∀ c ∈ run, isLayout c := by
                intro c member
                simpa using List.find?_eq_none.mp met c member
              simp only [ih, and_iff_right blank]

/-- Characters that begin on a line spell tokens and end on another line. -/
def Spells (line : Nat) (chars : List Char) (tokens : List Token) (last : Nat) : Prop :=
  RunsSpell line (chars.splitBy joins) tokens last

namespace Spells

variable {line middle last : Nat} {chars more : List Char} {tokens others : List Token}

theorem nil (line : Nat)
    : Spells line [] [] line :=
  RunsSpell.nil line

/-- What two pieces spell is put together where their ends do not join. -/
theorem append (first : Spells line chars tokens middle)
    (second : Spells middle more others last)
    (apart : ∀ a ∈ chars.getLast?, ∀ b ∈ more.head?, joins a b = false)
    : Spells line (chars ++ more) (tokens ++ others) last := by
  rw [Spells, List.splitBy_append apart]
  exact RunsSpell.append first second

theorem shift (spell : Spells line chars tokens last) (lines : Nat)
    : Spells (line + lines) chars (tokens.map (Token.mapLine (· + lines))) (last + lines) :=
  RunsSpell.shift spell lines

theorem last_eq (spell : Spells line chars tokens last)
    : last = line + chars.count '\n' := by
  have arrived := RunsSpell.last_eq spell fun run => IsRun.of_mem_splitBy
  rwa [List.flatten_splitBy] at arrived

/-- Nothing joins a piece behind that begins with a character that stands alone. -/
theorem append_of_head {c : Char} (alone : standsAlone c)
    (first : Spells line chars tokens middle)
    (second : Spells middle (c :: more) others last)
    : Spells line (chars ++ c :: more) (tokens ++ others) last := by
  refine first.append second ?_
  intro a _ b member
  obtain rfl := Option.some.inj member
  exact (joins_eq_false_of_standsAlone alone a).2

/-- Nothing joins a character in front that stands alone. -/
theorem cons {c : Char} (alone : standsAlone c) (first : Spells line [c] tokens middle)
    (second : Spells middle more others last)
    : Spells line (c :: more) (tokens ++ others) last := by
  refine append first second ?_
  intro a member b _
  obtain rfl := Option.some.inj member
  exact (joins_eq_false_of_standsAlone alone b).1

/-- A run that is a token spells it. -/
theorem run {run : List Char} {kind : TokenKind} (isRun : IsRun run)
    (token : runKind? run = some kind) (line : Nat)
    : Spells line run [{ kind := kind, text := String.ofList run, line := line }] line := by
  rw [Spells, isRun.splitBy_eq]
  exact .token token (.nil line)

/-- Layout spells nothing and may lead to the next line. -/
theorem layout {c : Char} (alone : standsAlone c) (blank : isLayout c) (line : Nat)
    : Spells line [c] [] (line + [c].count '\n') := by
  have silent : runKind? [c] = none := by
    rw [runKind?_singleton alone]
    simp only [isLayout, Bool.or_eq_true, beq_iff_eq] at blank
    rcases blank with (rfl | rfl) | rfl <;> rfl
  exact RunsSpell.layout silent (List.forall_mem_singleton.mpr blank) (.nil _)

/-- Two pieces on lines of their own do not join across the newline. -/
theorem append_newline (first : Spells line chars tokens middle)
    (second : Spells (middle + 1) more others last)
    : Spells line (chars ++ '\n' :: more) (tokens ++ others) last := by
  have alone : standsAlone '\n' := by decide
  have newline : Spells middle ['\n'] [] (middle + 1) := layout alone (by decide) middle
  exact first.append_of_head alone (newline.cons alone second)

end Spells

/-- A source is scanned exactly if it spells tokens from the first line on. -/
theorem scan_eq_ok_iff {source : String} {tokens : List Token}
    : scan source = .ok tokens
      ↔ ∃ spelled last,
          Spells 1 source.toList spelled last
          ∧ tokens = spelled ++ [Token.endOfInput last] := by
  rw [scan, scanRuns_eq_ok_iff]
  rfl

end Reckoner
