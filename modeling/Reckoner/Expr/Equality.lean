import Reckoner.Expr.Postorder

/-! Equality of expressions by value: numbers are compared numerically, and lines count. -/

namespace Reckoner

/-- Whether two nodes are alike. A literal that is no number is not like itself. -/
def Node.alike : Node → Node → Bool
  | .number a k, .number b l => a.numericallyEqual b && k == l
  | .null k, .null l => k == l
  | .reference x k, .reference y l => x == y && k == l
  | .apply f k, .apply g l => f == g && k == l
  | _, _ => false

/-- Whether two expressions have the same shape and alike nodes, which is so exactly when
their postorder listings are alike node by node.
-/
def Expr.alike (a b : Expr) : Bool :=
  a.postorder.isEqv b.postorder Node.alike

end Reckoner
