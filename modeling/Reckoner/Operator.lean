/-! The arithmetic operators, their spellings and their two tiers. -/

namespace Reckoner

/-- An arithmetic operator between two operands. -/
inductive Operator
  | add
  | sub
  | mul
  | div
  | rem
  deriving DecidableEq, Repr

namespace Operator

/-- The one character that spells the operator. -/
def character : Operator → Char
  | add => '+'
  | sub => '-'
  | mul => '*'
  | div => '/'
  | rem => '%'

/-- The spelling of the operator. -/
def symbol (op : Operator) : String :=
  op.character.toString

/-- The operator that a text spells, if it spells one. -/
def ofSymbol? : String → Option Operator
  | "+" => some add
  | "-" => some sub
  | "*" => some mul
  | "/" => some div
  | "%" => some rem
  | _ => none

/-- The operators of the additive tier, which bind loosest. -/
def isAdditive : Operator → Bool
  | add | sub => true
  | mul | div | rem => false

/-- The operators of the multiplicative tier, which bind tighter. -/
def isMultiplicative : Operator → Bool
  | mul | div | rem => true
  | add | sub => false

/-- Every operator is read back from its spelling. -/
theorem ofSymbol?_symbol (op : Operator)
    : ofSymbol? op.symbol = some op := by
  cases op <;> rfl

/-- The two tiers split the operators: what is not additive is multiplicative. -/
theorem isMultiplicative_eq (op : Operator)
    : op.isMultiplicative = !op.isAdditive := by
  cases op <;> rfl

end Operator
end Reckoner
