import Reckoner.Expr

/-! Programs: declarations of variables and expressions, one after another. -/

namespace Reckoner

/-- A statement, with the line it begins on. -/
inductive Statement
  | expression (value : Expr) (line : Nat)
  | declaration (name : String) (initializer : Expr) (line : Nat)
  deriving DecidableEq

/-- A program is its statements in order. -/
abbrev Program := List Statement

end Reckoner
