import Reckoner.Cursor
import Reckoner.Expr
import Reckoner.Number.Numeral

/-! Parsing expressions: two tiers of operators that fold to the left, over numbers, names,
null and parenthesized groups.
-/

namespace Reckoner
namespace Parser

/-- The context of an error at the end of a group. -/
def groupContext : String :=
  "Unexpected token found inside parenthesized expression"

/-- Parses an operand, given a parser for what stands inside a group. -/
def primaryWith (inner : Parser Expr) : Parser Expr := do
  let token ← peek
  match token.kind with
  | .number =>
      let _ ← advance
      match Binary64.ofText? token.text with
      | some value => return .number value token.line
      | none => throw (.invalidNumber token.text token.line)
  | .nullKeyword =>
      let _ ← advance
      return .null token.line
  | .identifier =>
      let _ ← advance
      return .reference token.text token.line
  | .openParen =>
      let _ ← advance
      enterGroup token.line
      let e ← inner
      let _ ← expect .closeParen groupContext
      leaveGroup
      return e
  | _ => throw (.unexpectedToken token)

/-- Parses the operators and operands behind a left operand, as long as the operators are
accepted. Each step reads an operator, so the tokens at the start bound the steps.
-/
def chainFrom (accepts : Operator → Bool) (operand : Parser Expr) (bound : List Token)
    (left : Expr)
    : Parser Expr :=
  match bound with
  | [] => return left
  | _ :: bound => do
      let token ← peek
      match token.operator? with
      | some op =>
          if accepts op then
            let _ ← advance
            let right ← operand
            chainFrom accepts operand bound (.binary left op right token.line)
          else
            return left
      | none => return left

/-- Parses operands joined by accepted operators, which fold to the left. -/
def chain (accepts : Operator → Bool) (operand : Parser Expr) : Parser Expr := do
  let left ← operand
  chainFrom accepts operand (← get).rest left

/-- Parses an expression that opens fewer groups inside each other than the given number. -/
def expressionWithin : Nat → Parser Expr
  | 0 => do throw (.nestingTooDeep (← peek).line)
  | groups + 1 =>
      chain Operator.isAdditive
        (chain Operator.isMultiplicative (primaryWith (expressionWithin groups)))

/-- Parses an expression. The open groups bound how many more can be opened, so the bound
on groups is never what stops it.
-/
def expression : Parser Expr := do
  expressionWithin (maxOpenGroups - (← get).depth + 1)

/-- Parses an operand: a number, null, a name or a group. -/
def primary : Parser Expr :=
  primaryWith expression

/-- Parses operands joined by operators of the multiplicative tier. -/
def multiplicative : Parser Expr :=
  chain Operator.isMultiplicative primary

/-- Parses operands joined by operators of both tiers, the multiplicative binding tighter. -/
def additive : Parser Expr :=
  chain Operator.isAdditive multiplicative

end Parser
end Reckoner
