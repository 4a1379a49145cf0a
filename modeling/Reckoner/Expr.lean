import Reckoner.Number.Binary64
import Reckoner.Operator

/-! Expressions as trees. Every node keeps the line it was written on. -/

namespace Reckoner

/-- An expression. The line of a binary node is that of its operator. -/
inductive Expr
  | number (value : Binary64) (line : Nat)
  | null (line : Nat)
  | reference (name : String) (line : Nat)
  | binary (left : Expr) (op : Operator) (right : Expr) (line : Nat)
  deriving DecidableEq

namespace Expr

/-- The line of the root node. -/
def line : Expr → Nat
  | number _ line | null line | reference _ line | binary _ _ _ line => line

/-- The number of nodes. -/
def size : Expr → Nat
  | number .. | null _ | reference .. => 1
  | binary left _ right _ => left.size + right.size + 1

/-- The number of nodes of several expressions. -/
def totalSize : List Expr → Nat
  | [] => 0
  | e :: rest => e.size + totalSize rest

end Expr
end Reckoner
