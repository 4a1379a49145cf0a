import Reckoner.Console
import Reckoner.Session
import Reckoner.Text.Blank

/-! The interactive loop: each line of the input is run in one session and answered. -/

namespace Reckoner

/-- The name the program answers to. -/
def programName : String := "ember"

/-- The version of the program. -/
def programVersion : String := "0.1.0"

/-- The answer to one line: the end of the loop, or texts to write and the next session. -/
inductive Reply
  | farewell
  | undecodable
  | answer (output errors : String) (session : Session)
  deriving DecidableEq

namespace Prompt

/-- What is written before the first prompt. -/
def banner : String :=
  "\n" ++ programName ++ " v" ++ programVersion ++ "\n"

/-- What is written before each line is read. -/
def invitation : String := "> "

/-- The message for a line that is not text. -/
def undecodableLine : String :=
  "stream did not contain valid UTF-8"

/-- Cuts bytes into lines, each with the newline that ends it. -/
def splitLines (bytes : List UInt8) : List (List UInt8) :=
  bytes.splitBy fun byte _ => byte != '\n'.toUInt8

/-- The text of a line without the newlines and carriage returns at its end. -/
def contentOf (line : String) : List Char :=
  Text.dropTrailing (fun c => c == '\n' || c == '\r') line.toList

/-- Answers a line. The word that ends the loop may stand between blanks; any other line is
run, and its value or its fault written.
-/
def respond (session : Session) (line : List UInt8) : Reply :=
  match String.fromUTF8? line.toByteArray with
  | none => .undecodable
  | some text =>
      let content := contentOf text
      if Text.trim content = ['e', 'x', 'i', 't'] then
        .farewell
      else
        let run := session.run (String.ofList content)
        match run.result with
        | .ok value => .answer (value.text ++ "\n") "" run.session
        | .error fault => .answer "" (fault.message ++ "\n") run.session

section Loop

variable {m : Type → Type} [Monad m] [Console m] {lines : Type} [ForIn m lines (List UInt8)]

/-- Answers the lines of an input as they come, until one of them ends the loop or there are no
more, and gives the exit code. There is a prompt before each line is read.
-/
def answerLines (session : Session) (input : lines) : m Nat := do
  let mut current := session
  Console.write invitation
  for line in input do
    match respond current line with
    | .farewell => return 0
    | .undecodable =>
        Console.report (undecodableLine ++ "\n")
        return 1
    | .answer written reported next =>
        Console.write written
        Console.report reported
        current := next
        Console.write invitation
  return 0

/-- The whole interactive loop, in a session of its own. -/
def loop (input : lines) : m Nat := do
  Console.write banner
  answerLines .fresh input

end Loop

/-- The transcript of the interactive loop over the bytes of an input. -/
def converse (input : List UInt8) : Transcript :=
  Written.nothing.record (loop (splitLines input))

end Prompt
end Reckoner
