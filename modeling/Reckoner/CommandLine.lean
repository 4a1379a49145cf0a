import Reckoner.Prompt

/-! The command line: what its arguments ask for, and what the program then writes. -/

namespace Reckoner

/-- What the arguments ask the program to do. -/
inductive Invocation
  | version
  | interactive
  | script (source : String)
  | file (path : String)
  deriving DecidableEq, Repr

/-- The arguments read so far: whether a file is meant, and the script or its name. -/
structure Arguments where
  file : Bool
  contents : Option String
  deriving DecidableEq, Repr

/-- Why the arguments are read no further. -/
inductive ArgumentStop
  | usageError
  | versionAsked
  deriving DecidableEq, Repr

namespace Arguments

/-- No arguments. -/
def none : Arguments :=
  { file := false, contents := .none }

/-- Takes the flag for a file, which may be given once. -/
def takeFile (seen : Arguments) : Except ArgumentStop Arguments :=
  if seen.file then .error .usageError else .ok { seen with file := true }

/-- Takes the script or file name, of which there may be one. -/
def takeContents (seen : Arguments) (text : String) : Except ArgumentStop Arguments :=
  match seen.contents with
  | .none => .ok { seen with contents := some text }
  | some _ => .error .usageError

/-- Takes one letter of an argument of short flags. -/
def takeFlag (seen : Arguments) (flag : Char) : Except ArgumentStop Arguments :=
  if flag = 'f' then
    seen.takeFile
  else if flag = 'V' then
    .error .versionAsked
  else
    .error .usageError

/-- Takes an argument that may be a flag. A lone dash is not one. -/
def take (seen : Arguments) (argument : String) : Except ArgumentStop Arguments :=
  match argument.toList with
  | '-' :: '-' :: _ =>
      if argument = "--file" then
        seen.takeFile
      else if argument = "--version" then
        .error .versionAsked
      else
        .error .usageError
  | '-' :: flag :: flags => (flag :: flags).foldlM takeFlag seen
  | _ => seen.takeContents argument

/-- Takes arguments in order. Behind a double dash none of them is a flag. -/
def takeAll (seen : Arguments) : List String → Except ArgumentStop Arguments
  | [] => .ok seen
  | argument :: rest =>
      if argument = "--" then
        rest.foldlM takeContents seen
      else
        match seen.take argument with
        | .ok seen => seen.takeAll rest
        | .error stop => .error stop

end Arguments

/-- What the arguments ask for, or nothing if they are not used correctly. A file needs a
name, and the version is answered as soon as it is asked for.
-/
def Invocation.ofArguments (arguments : List String) : Option Invocation :=
  match Arguments.none.takeAll arguments with
  | .error .usageError => none
  | .error .versionAsked => some .version
  | .ok { file := false, contents := none } => some .interactive
  | .ok { file := true, contents := none } => none
  | .ok { file := false, contents := some source } => some (.script source)
  | .ok { file := true, contents := some path } => some (.file path)

namespace CommandLine

/-- The message for a file that is missing, unreadable or not text. -/
def unreadableFile (path : String) : String :=
  "Failed to read the input file '" ++ path ++ "'. Perhaps this file does not exist?"

section Programs

variable {m : Type → Type} [Monad m] [Console m]

/-- Runs a script in a session of its own and writes its value or its fault. -/
def runScript (source : String) : m Nat :=
  match calculate source with
  | .ok value => do
      Console.write (value.text ++ "\n")
      return 0
  | .error fault => do
      Console.report (fault.message ++ "\n")
      return 1

/-- Runs the script in a file, given the bytes of the file if it can be read. -/
def runFile (path : String) (bytes : Option ByteArray) : m Nat :=
  match bytes.bind String.fromUTF8? with
  | some source => runScript source
  | none => do
      Console.report (unreadableFile path ++ "\n")
      return 1

/-- Answers the request for the version. -/
def answerVersion : m Nat := do
  Console.write (programName ++ " " ++ programVersion ++ "\n")
  return 0

/-- Does what was asked for and gives the exit code. The bytes of a file are read when they are
needed, and the lines of the standard input as they come.
-/
def serve {lines : Type} [ForIn m lines (List UInt8)] (readFile : String → m (Option ByteArray))
    (input : lines)
    : Invocation → m Nat
  | .version => answerVersion
  | .interactive => Prompt.loop input
  | .script source => runScript source
  | .file path => do runFile path (← readFile path)

end Programs

/-- The transcript of what was asked for, given the files and the bytes of the standard input. -/
def perform (files : String → Option ByteArray) (input : List UInt8) (invocation : Invocation)
    : Transcript :=
  Written.nothing.record
    (serve (fun path => return files path) (Prompt.splitLines input) invocation)

/-- The interactive loop is all that is done where it is asked for. -/
theorem perform_interactive (files : String → Option ByteArray) (input : List UInt8)
    : perform files input .interactive = Prompt.converse input :=
  rfl

end CommandLine
end Reckoner
