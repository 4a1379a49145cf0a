/-! The ways in which evaluation fails. -/

namespace Reckoner

/-- Why evaluation stopped. -/
inductive EvalError
  | unknownVariable (name : String) (line : Nat)
  | alreadyDeclared (name : String) (line : Nat)
  | notANumber (role found : String) (line : Nat)
  | divisionByZero (line : Nat)
  deriving DecidableEq, Repr

namespace EvalError

/-- The line of the name, the declaration or the operator that failed. -/
def line : EvalError → Nat
  | unknownVariable _ line | alreadyDeclared _ line | notANumber _ _ line
  | divisionByZero line => line

/-- What the error says behind its line. -/
def details : EvalError → String
  | unknownVariable name _ => s!"Unknown variable '{name}'."
  | alreadyDeclared name _ => s!"Variable '{name}' is already declared."
  | notANumber role found _ => s!"Type error: expected {role} to be a number, found {found}."
  | divisionByZero _ => "Division by zero."

/-- The message for an evaluation error. -/
def message (error : EvalError) : String :=
  s!"Error on line {error.line}: {error.details}"

end EvalError
end Reckoner
