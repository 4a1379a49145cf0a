/-! Where programs write. A program for any console runs at a terminal, and as well on a record of
what it writes, which is what can be said about it.
-/

namespace Reckoner

/-- A place to write texts to, and to report errors to apart from these. -/
class Console (m : Type → Type) where
  write : String → m Unit
  report : String → m Unit

/-- What a program has written so far. -/
structure Written where
  output : String
  errors : String
  deriving DecidableEq, Repr

/-- Nothing is written yet. -/
def Written.nothing : Written :=
  { output := "", errors := "" }

/-- What a program run leaves: what it wrote, and its exit code. -/
structure Transcript extends Written where
  code : Nat
  deriving DecidableEq, Repr

/-- A record of what is written: every text is put behind those before it. -/
instance : Console (StateM Written) where
  write text := modify fun written => { written with output := written.output ++ text }
  report text := modify fun written => { written with errors := written.errors ++ text }

/-- The transcript of a program that gives its exit code, behind what was written before. -/
def Written.record (before : Written) (program : StateM Written Nat) : Transcript :=
  let (code, written) := (program.run before).run
  { written with code := code }

end Reckoner
