import Reckoner.Number.Arithmetic
import Reckoner.Operator
import Reckoner.Value

/-! Applying an operator to two values. -/

namespace Reckoner
namespace Operator

/-- Applies an operator to two numbers. A divisor that is zero of either sign is an error. -/
def compute (op : Operator) (a b : Binary64) (line : Nat) : Except EvalError Binary64 :=
  match op with
  | add => .ok (a.add b)
  | sub => .ok (a.sub b)
  | mul => .ok (a.mul b)
  | div => if b.isZero then .error (.divisionByZero line) else .ok (a.div b)
  | rem => if b.isZero then .error (.divisionByZero line) else .ok (a.rem b)

/-- Applies an operator to two values, which have to be numbers. The left one is looked at
first, and both before the divisor.
-/
def apply (op : Operator) (left right : Value) (line : Nat) : Except EvalError Value := do
  let a ← left.asNumber "left operand" line
  let b ← right.asNumber "right operand" line
  let result ← op.compute a b line
  return .number result

end Operator
end Reckoner
