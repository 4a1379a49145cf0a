import Mathlib.Data.List.SplitBy
import Reckoner.Token.Scan

/-! The runs that a source is cut into. A run consists of digits, or of letters, or is one
other character; the runs of two sources joined by such a character are those of each.
-/

namespace Reckoner

-----------------------------------------------------------------------------------------
-- Digits, letters and other characters
-----------------------------------------------------------------------------------------

/-- A character that joins no other: neither a digit nor a letter. -/
def standsAlone (c : Char) : Bool :=
  !c.isDigit && !Text.isLetter c

/-- All letters lie behind the digits, since every range of letters does. -/
theorem Text.toNat_of_isLetter {c : Char} (letter : isLetter c)
    : 'A'.toNat ≤ c.toNat := by
  have ranges : ∀ range ∈ casedLetters, 'A'.toNat ≤ range.1 := by decide +kernel
  obtain ⟨range, member, within⟩ := List.any_eq_true.mp letter
  simp only [Bool.and_eq_true, decide_eq_true_eq] at within
  exact (ranges range member).trans within.1

theorem isLetter_of_isDigit {c : Char} (digit : c.isDigit)
    : Text.isLetter c = false := by
  rw [← Bool.not_eq_true]
  intro letter
  have behind := Text.toNat_of_isLetter letter
  simp only [Char.isDigit, ge_iff_le, Bool.and_eq_true, decide_eq_true_eq] at digit
  have upper : c.toNat ≤ '9'.toNat := digit.2
  have apart : '9'.toNat < 'A'.toNat := by decide
  omega

theorem isDigit_of_isLetter {c : Char} (letter : Text.isLetter c)
    : c.isDigit = false := by
  rw [← Bool.not_eq_true]
  intro digit
  rw [isLetter_of_isDigit digit] at letter
  cases letter

/-- Joined characters are both digits or both letters, and not one of each. -/
theorem isDigit_isLetter_eq_of_joins {a b : Char} (joined : joins a b)
    : (a.isDigit, Text.isLetter a) = (b.isDigit, Text.isLetter b) := by
  simp only [joins, Bool.or_eq_true, Bool.and_eq_true] at joined
  rcases joined with ⟨first, second⟩ | ⟨first, second⟩
  · rw [first, second, isLetter_of_isDigit first, isLetter_of_isDigit second]
  · rw [first, second, isDigit_of_isLetter first, isDigit_of_isLetter second]

theorem joins_eq_false_of_standsAlone {a : Char} (alone : standsAlone a) (b : Char)
    : joins a b = false ∧ joins b a = false := by
  simp only [standsAlone, Bool.and_eq_true, Bool.not_eq_true'] at alone
  simp [joins, alone]

-----------------------------------------------------------------------------------------
-- The shape of runs
-----------------------------------------------------------------------------------------

/-- What the runs of a source are: some digits, some letters, or one other character. -/
inductive IsRun : List Char → Prop
  | digits {run : List Char} (nonempty : run ≠ []) (all : ∀ c ∈ run, c.isDigit) : IsRun run
  | letters {run : List Char} (nonempty : run ≠ []) (all : ∀ c ∈ run, Text.isLetter c) : IsRun run
  | single {c : Char} (alone : standsAlone c) : IsRun [c]

/-- A chain of joined characters is a run. Witness: all of them are of the first one's class,
and behind a character that stands alone nothing is joined.
-/
theorem IsRun.of_isChain {run : List Char} (nonempty : run ≠ [])
    (chained : run.IsChain fun a b => joins a b)
    : IsRun run := by
  cases run with
  | nil => exact absurd rfl nonempty
  | cons first rest =>
      have alike : ∀ c ∈ first :: rest,
          (first.isDigit, Text.isLetter first) = (c.isDigit, Text.isLetter c) := by
        have related := List.isChain_iff_pairwise.mp
          (chained.imp fun _ _ => isDigit_isLetter_eq_of_joins)
        intro c member
        rcases List.mem_cons.mp member with rfl | behind
        · rfl
        · exact List.rel_of_pairwise_cons related behind
      by_cases digit : first.isDigit
      · refine .digits nonempty fun c member => ?_
        rw [← (Prod.mk.inj (alike c member)).1, digit]
      · by_cases letter : Text.isLetter first
        · refine .letters nonempty fun c member => ?_
          rw [← (Prod.mk.inj (alike c member)).2, letter]
        · have alone : standsAlone first := by simp [standsAlone, digit, letter]
          cases rest with
          | nil => exact .single alone
          | cons second rest =>
              have joined := (List.isChain_cons_cons.mp chained).1
              rw [(joins_eq_false_of_standsAlone alone second).1] at joined
              cases joined

theorem IsRun.of_mem_splitBy {chars run : List Char} (member : run ∈ chars.splitBy joins)
    : IsRun run :=
  .of_isChain (List.ne_nil_of_mem_splitBy member) (List.isChain_of_mem_splitBy member)

/-- A run that is a source by itself is not cut. -/
theorem IsRun.splitBy_eq {run : List Char} (isRun : IsRun run)
    : run.splitBy joins = [run] := by
  have whole (nonempty : run ≠ []) (joined : ∀ a ∈ run, ∀ b ∈ run, joins a b)
      : run.splitBy joins = [run] :=
    List.splitBy_of_isChain nonempty (List.pairwise_of_forall_mem_list joined).isChain
  cases isRun with
  | digits nonempty all =>
      refine whole nonempty fun a first b second => ?_
      simp [joins, all a first, all b second]
  | letters nonempty all =>
      refine whole nonempty fun a first b second => ?_
      simp [joins, all a first, all b second]
  | single => rfl

/-- A character that stands alone is a run wherever it stands. -/
theorem splitBy_append_cons_of_standsAlone {c : Char} (alone : standsAlone c)
    (front behind : List Char)
    : (front ++ c :: behind).splitBy joins
      = front.splitBy joins ++ [c] :: behind.splitBy joins := by
  have apart := joins_eq_false_of_standsAlone alone
  have cut : ([c] ++ behind).splitBy joins = [[c]] ++ behind.splitBy joins :=
    List.splitBy_append (by simp [apart])
  rw [List.splitBy_append_cons behind fun a _ => (apart a).2]
  exact congrArg _ cut

theorem runKind?_of_digits {run : List Char} (nonempty : run ≠ []) (all : ∀ c ∈ run, c.isDigit)
    : runKind? run = some .number := by
  cases run with
  | nil => exact absurd rfl nonempty
  | cons first rest => simp [runKind?, all first List.mem_cons_self]

theorem runKind?_of_letters {run : List Char} (nonempty : run ≠ [])
    (all : ∀ c ∈ run, Text.isLetter c)
    : runKind? run = some (wordKind run) := by
  cases run with
  | nil => exact absurd rfl nonempty
  | cons first rest =>
      have letter := all first List.mem_cons_self
      simp [runKind?, letter, isDigit_of_isLetter letter]

theorem runKind?_singleton {c : Char} (alone : standsAlone c)
    : runKind? [c] = signKind? c := by
  simp only [standsAlone, Bool.and_eq_true, Bool.not_eq_true'] at alone
  simp [runKind?, alone]

/-- No token goes over the end of a line. -/
theorem IsRun.count_newline {run : List Char} (isRun : IsRun run) {kind : TokenKind}
    (token : runKind? run = some kind)
    : run.count '\n' = 0 := by
  rw [List.count_eq_zero]
  intro newline
  cases isRun with
  | digits _ all => exact absurd (all _ newline) (by decide)
  | letters _ all => exact absurd (all _ newline) (by decide)
  | single alone =>
      obtain rfl := List.mem_singleton.mp newline
      rw [runKind?_singleton alone] at token
      cases token

end Reckoner
