import Reckoner.CommandLine

/-! The program at a terminal: where it writes, and how it reads lines and files. What it does
with them is the same as on a record.
-/

namespace Reckoner

/-- What is written is seen before anything else is read. -/
instance : Console IO where
  write text := do
    let output ← IO.getStdout
    output.putStr text
    output.flush
  report text := IO.eprint text

/-- An input whose lines are read one by one. -/
structure LineInput where
  stream : IO.FS.Stream

namespace LineInput

/-- Reads the bytes of a line, with the newline that ends it; none at the end of input. -/
partial def readLine (input : LineInput) (line : Array UInt8) : IO (Array UInt8) := do
  let bytes ← input.stream.read 1
  match bytes.data[0]? with
  | none => return line
  | some byte =>
      if byte == '\n'.toUInt8 then
        return line.push byte
      else
        input.readLine (line.push byte)

/-- Goes through the lines up to the end of input, or to the one where it is told to stop. -/
partial def forLines {state : Type} (input : LineInput) (current : state)
    (step : List UInt8 → state → IO (ForInStep state))
    : IO state := do
  let line ← input.readLine #[]
  if line.isEmpty then
    return current
  else
    match ← step line.toList current with
    | .done last => return last
    | .yield next => input.forLines next step

instance : ForIn IO LineInput (List UInt8) where
  forIn := forLines

end LineInput

/-- The bytes of a file, if it can be read. -/
def readBytes (path : String) : IO (Option ByteArray) := do
  try
    return some (← IO.FS.readBinFile path)
  catch _ =>
    return none

/-- Does what the arguments ask for. -/
def runWith (arguments : List String) : IO UInt32 := do
  match Invocation.ofArguments arguments with
  | none =>
      IO.eprintln s!"Usage: {programName} [--file] [CONTENTS]"
      return 2
  | some invocation =>
      let input : LineInput := { stream := ← IO.getStdin }
      let code ← CommandLine.serve readBytes input invocation
      return code.toUInt32

end Reckoner

def main (arguments : List String) : IO UInt32 :=
  Reckoner.runWith arguments
