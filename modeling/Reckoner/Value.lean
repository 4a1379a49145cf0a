import Reckoner.EvalError
import Reckoner.Number.Shortest

/-! Values: numbers and null. -/

namespace Reckoner

/-- What evaluating an expression gives. -/
inductive Value
  | number (value : Binary64)
  | null
  deriving DecidableEq

namespace Value

/-- The name of the type of a value, for the errors about it. -/
def typeName : Value → String
  | number _ => "number"
  | null => "null"

/-- The text of a value. -/
def text : Value → String
  | number value => value.text
  | null => "null"

/-- The number that a value is. The error for null names the role that the value plays, and its
type.
-/
def asNumber (value : Value) (role : String) (line : Nat) : Except EvalError Binary64 :=
  match value with
  | number value => .ok value
  | null => .error (.notANumber role value.typeName line)

end Value
end Reckoner
