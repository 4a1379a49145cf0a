import Mathlib.Data.List.DropRight
import Mathlib.Data.List.SplitBy
import Reckoner.Prompt

/-! The lines of an input: bytes are cut behind every newline, a line is text if it is the
encoding of one, and what stands at its end makes no difference to what is between its blanks.
-/

namespace Reckoner

-----------------------------------------------------------------------------------------
-- Cutting bytes into lines
-----------------------------------------------------------------------------------------

/-- Every element of a list with another one behind it satisfies a property exactly if all but
the last one do, by induction on the list.
-/
theorem isChain_left_iff {α : Type} {p : α → Prop} {elements : List α}
    : elements.IsChain (fun a _ => p a) ↔ ∀ a ∈ elements.dropLast, p a := by
  induction elements with
  | nil => simp
  | cons a rest ih =>
      cases rest with
      | nil => simp
      | cons b others =>
          rw [List.isChain_cons_cons, ih, List.dropLast_cons_cons, List.forall_mem_cons]

namespace Prompt

/-- The byte that ends a line. -/
def newline : UInt8 := '\n'.toUInt8

/-- Bytes are cut into lines: the lines are the bytes in their order, none of them is empty, and
newlines are nowhere but at the end of lines, where only the last line may lack one.
-/
structure IsCutInto (bytes : List UInt8) (lines : List (List UInt8)) : Prop where
  flatten : bytes = lines.flatten
  nonempty : ∀ line ∈ lines, line ≠ []
  unbroken : ∀ line ∈ lines, newline ∉ line.dropLast
  ended : ∀ line ∈ lines.dropLast, line.getLast? = some newline

/-- A byte is nowhere but at the end of a line exactly if it has no other one behind it. -/
theorem isChain_ne_iff {byte : UInt8} {line : List UInt8}
    : line.IsChain (fun a _ => a != byte) ↔ byte ∉ line.dropLast := by
  rw [isChain_left_iff]
  constructor
  · intro differ member
    exact bne_iff_ne.mp (differ byte member) rfl
  · intro absent a member
    exact bne_iff_ne.mpr fun same => absent (same ▸ member)

/-- There is one way to cut bytes into lines. Witness: both say of every byte with another one
behind it in its line, and of every line with another one behind it, how it ends.
-/
theorem isCutInto_iff {bytes : List UInt8} {lines : List (List UInt8)}
    : IsCutInto bytes lines ↔ splitLines bytes = lines := by
  have between (nonempty : ∀ line ∈ lines, line ≠ [])
      : lines.IsChain (fun line next => ∃ (some : line ≠ []) (_ : next ≠ []),
          (line.getLast some != newline) = false)
        ↔ ∀ line ∈ lines.dropLast, line.getLast? = some newline := by
    rw [← isChain_left_iff]
    refine List.IsChain.iff_of_mem_imp fun line next member behind => ?_
    rw [List.getLast?_eq_some_getLast (nonempty line member)]
    simp [nonempty line member, nonempty next behind]
  have some_iff : [] ∉ lines ↔ ∀ line ∈ lines, line ≠ [] :=
    ⟨fun absent line member empty => absent (empty ▸ member),
      fun nonempty member => nonempty [] member rfl⟩
  rw [splitLines, List.splitBy_eq_iff, some_iff]
  constructor
  · intro cut
    exact ⟨cut.flatten, cut.nonempty,
      fun line member => isChain_ne_iff.mpr (cut.unbroken line member),
      (between cut.nonempty).mpr cut.ended⟩
  · rintro ⟨flatten, nonempty, unbroken, ended⟩
    exact ⟨flatten, nonempty, fun line member => isChain_ne_iff.mp (unbroken line member),
      (between nonempty).mp ended⟩

end Prompt

-----------------------------------------------------------------------------------------
-- Lines that are text
-----------------------------------------------------------------------------------------

/-- The bytes of a text, which encode its characters one after another. -/
def Text.bytes (text : String) : List UInt8 :=
  text.toList.flatMap String.utf8EncodeChar

/-- The bytes of a text are decoded to it, and no others are. -/
theorem Text.fromUTF8?_eq_some_iff {line : List UInt8} {text : String}
    : String.fromUTF8? line.toByteArray = some text ↔ line = bytes text := by
  have encoded : (bytes text).toByteArray = text.toByteArray := String.utf8Encode_toList
  constructor
  · intro decoded
    unfold String.fromUTF8? at decoded
    split at decoded
    · obtain rfl := Option.some.inj decoded
      exact List.toByteArray_inj.mp encoded.symm
    · cases decoded
  · rintro rfl
    rw [encoded, String.fromUTF8?, dif_pos text.isValidUTF8]
    rfl

-----------------------------------------------------------------------------------------
-- What stands at the end of a line
-----------------------------------------------------------------------------------------

/-- The text without the newlines and carriage returns at its end. -/
def Prompt.sourceOf (text : String) : String :=
  String.ofList (text.toList.rdropWhile fun c => c == '\n' || c == '\r')

/-- Trimming does not notice a blank at the end: it goes with those in front if there is nothing
else, and with those behind otherwise.
-/
theorem Text.trim_concat {c : Char} (blank : isBlank c) (text : List Char)
    : trim (text ++ [c]) = trim text := by
  rw [trim, trim, List.dropWhile_append]
  split
  · next empty =>
      rw [List.isEmpty_iff.mp empty, List.dropWhile_cons_of_pos blank]
      rfl
  · exact List.rdropWhile_concat_pos isBlank (text.dropWhile isBlank) c blank

/-- Trimming does not notice whether blanks at the end were dropped before, by induction on the
text from its end.
-/
theorem Text.trim_rdropWhile {p : Char → Bool} (blank : ∀ c, p c → isBlank c)
    (text : List Char)
    : trim (text.rdropWhile p) = trim text := by
  induction text using List.reverseRecOn with
  | nil => rfl
  | append_singleton front c ih =>
      by_cases drops : p c
      · rw [List.rdropWhile_concat_pos p front c drops, ih, trim_concat (blank c drops)]
      · rw [List.rdropWhile_concat_neg p front c drops]

/-- Newlines and carriage returns are blanks, so the word that ends the loop may have any number
of them behind it.
-/
theorem Prompt.trim_contentOf (text : String)
    : Text.trim (contentOf text) = Text.trim text.toList := by
  refine Text.trim_rdropWhile (fun c isEnd => ?_) text.toList
  rcases Bool.or_eq_true_iff.mp isEnd with same | same
  all_goals
    rw [beq_iff_eq.mp same]
    decide

end Reckoner
