import Reckoner.Token

/-! The ways in which tokens fail to be a program. -/

namespace Reckoner

/-- How many parenthesized groups may be open at once. -/
def maxOpenGroups : Nat := 256

/-- Why parsing stopped. -/
inductive SyntaxError
  | unexpectedToken (found : Token)
  | expectedToken (expected : TokenKind) (found : Token) (context : String)
  | invalidNumber (text : String) (line : Nat)
  | nestingTooDeep (line : Nat)
  deriving DecidableEq, Repr

namespace SyntaxError

/-- The line an error is reported on: that of the token that was found. -/
def line : SyntaxError → Nat
  | unexpectedToken found | expectedToken _ found _ => found.line
  | invalidNumber _ line | nestingTooDeep line => line

/-- What the error says behind its line. -/
def details : SyntaxError → String
  | unexpectedToken found => s!"Unexpected token found during parsing: {found.description}."
  | expectedToken expected found context =>
      s!"{context}. Expected {expected.description}, found {found.description}."
  | invalidNumber text _ => s!"Invalid numeric literal '{text}'."
  | nestingTooDeep _ => s!"Parentheses are nested more than {maxOpenGroups} levels deep."

/-- The message for a syntax error. -/
def message (error : SyntaxError) : String :=
  s!"Error on line {error.line}: {error.details}"

end SyntaxError
end Reckoner
