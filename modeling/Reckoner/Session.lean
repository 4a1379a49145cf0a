import Reckoner.Program.Execute
import Reckoner.Program.Parse
import Reckoner.Token.Scan

/-! Sessions: sources are run one after another, and what they declare stays. -/

namespace Reckoner

/-- Why a source was not run to its end. -/
inductive Fault
  | lexical (error : LexicalError)
  | grammatical (error : SyntaxError)
  | runtime (error : EvalError)
  deriving DecidableEq

/-- The line that a fault names. -/
def Fault.line : Fault → Nat
  | lexical error => error.line
  | grammatical error => error.line
  | runtime error => error.line

/-- The message for a fault. -/
def Fault.message : Fault → String
  | lexical error => error.message
  | grammatical error => error.message
  | runtime error => error.message

/-- The program that a source spells. The whole source is scanned before any is parsed. -/
def Program.ofSource (source : String) : Except Fault Program :=
  match scan source with
  | .error error => .error (.lexical error)
  | .ok tokens => (Program.ofTokens tokens).mapError .grammatical

/-- What a session keeps between sources. -/
structure Session where
  environment : Environment
  deriving DecidableEq

/-- A source that has been run: its outcome, the session after it, and its log. -/
structure Run where
  result : Except Fault Value
  session : Session
  log : List LogRecord

namespace Session

/-- A session with nothing declared. -/
def fresh : Session :=
  { environment := .empty }

/-- Runs a source: scans it, parses it and executes its program, as far as each succeeds. -/
def run (session : Session) (source : String) : Run :=
  match scan source with
  | .error error => { result := .error (.lexical error), session := session, log := [] }
  | .ok tokens =>
      match Program.ofTokens tokens with
      | .error error =>
          { result := .error (.grammatical error)
            session := session
            log := [.scanned tokens.length] }
      | .ok program =>
          let done := program.execute session.environment
          { result := done.result.mapError .runtime
            session := { environment := done.environment }
            log := .scanned tokens.length :: .parsed program.length :: done.log }

/-- The value of a name in a session. -/
def lookup (session : Session) (name : String) : Option Value :=
  session.environment.lookup name

end Session

/-- The outcome of a source in a session of its own. -/
def calculate (source : String) : Except Fault Value :=
  (Session.fresh.run source).result

end Reckoner
