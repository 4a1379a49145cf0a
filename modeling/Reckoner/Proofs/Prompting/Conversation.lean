import Reckoner.Proofs.Prompting.Lines
import Reckoner.Proofs.Sessions.Persistence

/-! Conversations. The interactive loop answers every line in front of the first one that ends
it, by what one session makes of their texts in turn; what it writes are the outcomes in order.
-/

namespace Reckoner

/-- The outcomes of sources that a session runs one after another. -/
def Session.outcomes (session : Session) (sources : List String) : List (Except Fault Value) :=
  sources.mapIdx fun i source => ((session.runAll (sources.take i)).run source).result

/-- The first outcome is that of the first source, and the session after it has the others. -/
theorem Session.outcomes_cons (session : Session) (source : String) (rest : List String)
    : session.outcomes (source :: rest)
      = (session.run source).result :: (session.run source).session.outcomes rest := by
  rw [outcomes, List.mapIdx_cons]
  rfl

/-- A source that fails among others keeps what it completed, from the session that the sources
in front of it leave to the one that those behind it find.
-/
theorem Session.keepsCompleted_of_outcomes (session : Session) {sources : List String} {i : Nat}
    {source : String} {fault : Fault} (found : sources[i]? = some source)
    (failed : (session.outcomes sources)[i]? = some (.error fault))
    : (session.runAll (sources.take i)).KeepsCompleted source fault
        (session.runAll (sources.take (i + 1))) := by
  have next : session.runAll (sources.take (i + 1))
      = ((session.runAll (sources.take i)).run source).session := by
    rw [List.take_add_one, found, runAll_append]
    rfl
  rw [outcomes, List.getElem?_mapIdx, found] at failed
  rw [next]
  exact keepsCompleted_of_run_eq_error (Option.some.inj failed)

namespace Prompt

-----------------------------------------------------------------------------------------
-- What is read and what is written
-----------------------------------------------------------------------------------------

/-- The texts that end the loop: the one word, between any blanks. -/
def IsFarewell (text : String) : Prop :=
  Text.trim text.toList = "exit".toList

instance (text : String) : Decidable (IsFarewell text) :=
  inferInstanceAs (Decidable (_ = _))

/-- An input is taken in as texts that are answered, and lines that are not: in front of these
no text ends the loop, and the first of them does so or is no text.
-/
structure Takes (input : List UInt8) (texts : List String) (rest : List (List UInt8)) : Prop
    where
  lines : IsCutInto input (texts.map Text.bytes ++ rest)
  answered : ∀ text ∈ texts, ¬ IsFarewell text
  ended : ∀ line ∈ rest.head?, ∀ text, line = Text.bytes text → IsFarewell text

/-- The line that ends the loop is no text. -/
def EndsUndecodable (rest : List (List UInt8)) : Prop :=
  ∃ line ∈ rest.head?, ∀ text, line ≠ Text.bytes text

/-- What is written from one prompt to the next, by the outcome of the line between them. -/
def written : Except Fault Value → String
  | .ok value => "> " ++ value.text ++ "\n"
  | .error _ => "> "

/-- What is reported about the outcome of a line. -/
def reported : Except Fault Value → String
  | .ok _ => ""
  | .error fault => fault.message ++ "\n"

/-- Every input is taken in in some way, by induction on its lines: the first one is answered
unless it ends the loop.
-/
theorem exists_takes (input : List UInt8)
    : ∃ texts rest, Takes input texts rest := by
  have divided (lines : List (List UInt8))
      : ∃ (texts : List String) (rest : List (List UInt8)),
          lines = texts.map Text.bytes ++ rest
          ∧ (∀ text ∈ texts, ¬ IsFarewell text)
          ∧ ∀ line ∈ rest.head?, ∀ text, line = Text.bytes text → IsFarewell text := by
    induction lines with
    | nil => exact ⟨[], [], rfl, by simp, by simp⟩
    | cons line others ih =>
        by_cases ends : ∀ text, line = Text.bytes text → IsFarewell text
        · exact ⟨[], line :: others, rfl, by simp, by simpa using ends⟩
        · simp only [not_forall, exists_prop] at ends
          obtain ⟨text, rfl, stays⟩ := ends
          obtain ⟨texts, rest, rfl, answered, ended⟩ := ih
          exact ⟨text :: texts, rest, rfl, List.forall_mem_cons.mpr ⟨stays, answered⟩, ended⟩
  obtain ⟨texts, rest, split, answered, ended⟩ := divided (splitLines input)
  exact ⟨texts, rest, split ▸ isCutInto_iff.mpr rfl, answered, ended⟩

-----------------------------------------------------------------------------------------
-- The loop on lines in hand
-----------------------------------------------------------------------------------------

section Console

variable {m : Type → Type} [Monad m] [LawfulMonad m] [Console m]

/-- Without lines there is one prompt. -/
theorem answerLines_nil (session : Session)
    : answerLines session ([] : List (List UInt8))
      = (do
          Console.write invitation
          return 0 : m Nat) := by
  simp [answerLines]

/-- On any console, the loop answers the first line and goes on with the others, unless it ends. -/
theorem answerLines_cons (session : Session) (line : List UInt8) (rest : List (List UInt8))
    : answerLines session (line :: rest)
      = (do
          Console.write invitation
          match respond session line with
          | .farewell => return 0
          | .undecodable =>
              Console.report (undecodableLine ++ "\n")
              return 1
          | .answer written reported next =>
              Console.write written
              Console.report reported
              answerLines next rest : m Nat) := by
  cases reply : respond session line with
  | farewell | undecodable | answer written reported next => simp [answerLines, reply]

end Console

/-- The transcript of the loop on lines, behind what was written before. -/
def converseFrom (session : Session) (output errors : String) (lines : List (List UInt8))
    : Transcript :=
  Written.record { output := output, errors := errors } (answerLines session lines)

theorem converseFrom_nil (session : Session) (output errors : String)
    : converseFrom session output errors []
      = { code := 0, output := output ++ invitation, errors := errors } := by
  rw [converseFrom, answerLines_nil]
  rfl

/-- What the loop writes about a line is put behind what was written before. -/
theorem converseFrom_line (session : Session) (output errors : String) (line : List UInt8)
    (rest : List (List UInt8))
    : converseFrom session output errors (line :: rest)
      = match respond session line with
        | .farewell => { code := 0, output := output ++ invitation, errors := errors }
        | .undecodable =>
            { code := 1
              output := output ++ invitation
              errors := errors ++ (undecodableLine ++ "\n") }
        | .answer written reported next =>
            converseFrom next (output ++ invitation ++ written) (errors ++ reported) rest := by
  rw [converseFrom, answerLines_cons]
  cases respond session line with
  | farewell | undecodable | answer written reported next => rfl

-----------------------------------------------------------------------------------------
-- Answers
-----------------------------------------------------------------------------------------

variable {text : String} {rest : List (List UInt8)}

/-- The loop ends at the word for it. -/
theorem respond_of_isFarewell (ends : IsFarewell text) (session : Session)
    : respond session (Text.bytes text) = .farewell := by
  have content : Text.trim (contentOf text) = ['e', 'x', 'i', 't'] :=
    (trim_contentOf text).trans ends
  rw [respond, Text.fromUTF8?_eq_some_iff.mpr rfl]
  exact if_pos content

/-- The loop ends at what is no text. -/
theorem respond_of_undecodable {line : List UInt8} (undecodable : ∀ text, line ≠ Text.bytes text)
    (session : Session)
    : respond session line = .undecodable := by
  have refused : String.fromUTF8? line.toByteArray = none :=
    Option.eq_none_iff_forall_ne_some.mpr fun text decoded =>
      undecodable text (Text.fromUTF8?_eq_some_iff.mp decoded)
  rw [respond, refused]

/-- Any other text is answered by its outcome as a source, and the loop goes on. -/
theorem converseFrom_cons (stays : ¬ IsFarewell text) (session : Session)
    (output errors : String) (rest : List (List UInt8))
    : converseFrom session output errors (Text.bytes text :: rest)
      = converseFrom (session.run (sourceOf text)).session
          (output ++ written (session.run (sourceOf text)).result)
          (errors ++ reported (session.run (sourceOf text)).result) rest := by
  have content : Text.trim (contentOf text) ≠ ['e', 'x', 'i', 't'] :=
    fun same => stays ((trim_contentOf text).symm.trans same)
  have source : String.ofList (contentOf text) = sourceOf text := rfl
  rw [converseFrom_line, respond, Text.fromUTF8?_eq_some_iff.mpr rfl]
  simp only [if_neg content, source]
  cases (session.run (sourceOf text)).result with
  | ok value => simp only [written, reported, String.append_assoc]; rfl
  | error fault => simp [written, reported, invitation]

/-- Texts are answered by their outcomes in order, by induction on them for any session and
whatever was written before.
-/
theorem converseFrom_append {texts : List String} (answered : ∀ text ∈ texts, ¬ IsFarewell text)
    (session : Session) (output errors : String) (rest : List (List UInt8))
    : converseFrom session output errors (texts.map Text.bytes ++ rest)
      = converseFrom (session.runAll (texts.map sourceOf))
          (output ++ String.join ((session.outcomes (texts.map sourceOf)).map written))
          (errors ++ String.join ((session.outcomes (texts.map sourceOf)).map reported))
          rest := by
  induction texts generalizing session output errors with
  | nil => simp [Session.outcomes, Session.runAll, String.join]
  | cons text texts ih =>
      obtain ⟨stays, others⟩ := List.forall_mem_cons.mp answered
      rw [List.map_cons, List.cons_append, converseFrom_cons stays, ih others]
      simp only [List.map_cons, Session.outcomes_cons, String.join_cons, String.append_assoc]
      rfl

/-- A line that ends the loop, or none, leaves the last prompt. -/
theorem converseFrom_of_ended
    (ended : ∀ line ∈ rest.head?, ∀ text, line = Text.bytes text → IsFarewell text)
    (session : Session) (output errors : String)
    : (EndsUndecodable rest
        ∧ converseFrom session output errors rest
          = { code := 1
              output := output ++ "> "
              errors := errors ++ "stream did not contain valid UTF-8\n" })
      ∨ (¬ EndsUndecodable rest
        ∧ converseFrom session output errors rest
          = { code := 0, output := output ++ "> ", errors := errors }) := by
  cases rest with
  | nil => exact .inr ⟨by simp [EndsUndecodable], converseFrom_nil session output errors⟩
  | cons line others =>
      by_cases undecodable : ∀ text, line ≠ Text.bytes text
      · refine .inl ⟨⟨line, rfl, undecodable⟩, ?_⟩
        rw [converseFrom_line, respond_of_undecodable undecodable]
        rfl
      · simp only [not_forall, not_not] at undecodable
        obtain ⟨text, rfl⟩ := undecodable
        refine .inr ⟨?_, ?_⟩
        · rintro ⟨line, found, undecodable⟩
          exact undecodable text (Option.some.inj found).symm
        · rw [converseFrom_line, respond_of_isFarewell (ended _ rfl text rfl)]
          rfl

/-- Every input is taken in, and however it is: the loop writes the outcomes of the texts that
it answers, each behind a prompt and in their order, and one prompt more; it reports their
faults, and a line that is no text, for which alone the exit code is not zero. The outcomes are
those of one session, in which a fault keeps nothing but what was completed.
-/
theorem converse_answers (input : List UInt8)
    : (∃ texts rest, Takes input texts rest)
      ∧ ∀ texts rest, Takes input texts rest →
        let sources := texts.map sourceOf
        let outcomes := Session.fresh.outcomes sources
        (converse input).output
          = "\nember v0.1.0\n" ++ String.join (outcomes.map written) ++ "> "
        ∧ ((EndsUndecodable rest
            ∧ (converse input).code = 1
            ∧ (converse input).errors
              = String.join (outcomes.map reported) ++ "stream did not contain valid UTF-8\n")
          ∨ (¬ EndsUndecodable rest
            ∧ (converse input).code = 0
            ∧ (converse input).errors = String.join (outcomes.map reported)))
        ∧ ∀ i source fault,
          sources[i]? = some source → outcomes[i]? = some (.error fault) →
            (Session.fresh.runAll (sources.take i)).KeepsCompleted source fault
              (Session.fresh.runAll (sources.take (i + 1))) := by
  refine ⟨exists_takes input, fun texts rest takes => ?_⟩
  intro sources outcomes
  have kept : ∀ i source fault,
      sources[i]? = some source → outcomes[i]? = some (.error fault) →
        (Session.fresh.runAll (sources.take i)).KeepsCompleted source fault
          (Session.fresh.runAll (sources.take (i + 1))) :=
    fun i source fault => Session.fresh.keepsCompleted_of_outcomes
  -- The input is cut in one way only, so the lines of the loop are the texts and the rest.
  have conversed : converse input
      = converseFrom (Session.fresh.runAll sources)
          ("\nember v0.1.0\n" ++ String.join (outcomes.map written))
          (String.join (outcomes.map reported)) rest := by
    have begun : converse input = converseFrom .fresh banner "" (splitLines input) := rfl
    rw [begun, isCutInto_iff.mp takes.lines, converseFrom_append takes.answered,
      String.empty_append]
    rfl
  rcases converseFrom_of_ended takes.ended (Session.fresh.runAll sources)
    ("\nember v0.1.0\n" ++ String.join (outcomes.map written))
    (String.join (outcomes.map reported)) with ⟨undecodable, same⟩ | ⟨decodable, same⟩
  · rw [conversed, same]
    exact ⟨rfl, .inl ⟨undecodable, rfl, rfl⟩, kept⟩
  · rw [conversed, same]
    exact ⟨rfl, .inr ⟨decodable, rfl, rfl⟩, kept⟩

/-- Of four lines, the second one declares a name again, and the third one still has it, with
two carriage returns behind; the last one is no text.
-/
theorem converse_answers_undecodable
    : let texts := ["let x = null\r\n", "let x = 0\n", "x\r\r\n"]
      let input := texts.flatMap Text.bytes ++ [0xFF, 0x0A] ++ Text.bytes "null"
      Takes input texts [[0xFF, 0x0A], Text.bytes "null"]
      ∧ (converse input).output = "\nember v0.1.0\n> null\n> > null\n> "
      ∧ (converse input).code = 1
      ∧ (converse input).errors
        = EvalError.message (.alreadyDeclared "x" 1)
          ++ "\nstream did not contain valid UTF-8\n" := by
  intro texts input
  have undecodable : ∀ text, [0xFF, 0x0A] ≠ Text.bytes text := by
    intro text same
    have refused : String.fromUTF8? [0xFF, 0x0A].toByteArray = none := by decide +kernel
    rw [Text.fromUTF8?_eq_some_iff.mpr same] at refused
    cases refused
  have takes : Takes input texts [[0xFF, 0x0A], Text.bytes "null"] := by
    refine ⟨isCutInto_iff.mpr (by decide +kernel), by decide +kernel, ?_⟩
    intro line found text same
    obtain rfl := Option.some.inj found
    exact absurd same (undecodable text)
  have outcomes : Session.fresh.outcomes (texts.map sourceOf)
      = [.ok .null, .error (.runtime (.alreadyDeclared "x" 1)), .ok .null] := by
    decide +kernel
  obtain ⟨output, ⟨-, code, errors⟩ | ⟨decodable, -⟩, -⟩ :=
    (converse_answers input).2 texts _ takes
  · rw [outcomes] at output errors
    refine ⟨takes, output.trans ?_, code, errors.trans ?_⟩ <;> decide +kernel
  · exact absurd ⟨_, rfl, undecodable⟩ decodable

end Prompt
end Reckoner
