import Reckoner.Expr.Equality
import Reckoner.Program

/-! Equality of statements and programs by value: their expressions are compared by value, and
names and lines count.
-/

namespace Reckoner

/-- Whether two statements are of one form, with the same name and line and alike expressions. -/
def Statement.alike : Statement → Statement → Bool
  | .expression a k, .expression b l => a.alike b && k == l
  | .declaration x a k, .declaration y b l => x == y && a.alike b && k == l
  | _, _ => false

/-- Whether two programs have alike statements, one by one. -/
def Program.alike (p q : Program) : Bool :=
  p.isEqv q Statement.alike

end Reckoner
