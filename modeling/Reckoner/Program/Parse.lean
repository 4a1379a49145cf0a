import Reckoner.Expr.Parse
import Reckoner.Program

/-! Parsing statements and programs. Nothing separates statements: each ends where its
expression does.
-/

namespace Reckoner
namespace Parser

/-- The context of an error in the head of a declaration. -/
def declarationContext : String :=
  "Invalid variable declaration"

/-- Parses a declaration: the keyword, a name, an equals sign and an expression. -/
def declaration : Parser Statement := do
  let keyword ← advance
  let name ← expect .identifier declarationContext
  let _ ← expect .equals declarationContext
  let initializer ← expression
  return .declaration name.text initializer keyword.line

/-- Parses a statement. -/
def statement : Parser Statement := do
  let first ← peek
  if first.kind = .letKeyword then
    declaration
  else
    let value ← expression
    return .expression value first.line

/-- Parses statements up to the end, behind those already parsed, which are kept in reverse.
Each statement reads a token, so the tokens at the start bound their number.
-/
def statementsFrom (bound : List Token) (parsed : Program) : Parser Program :=
  match bound with
  | [] => return parsed.reverse
  | _ :: bound => do
      if (← get).atEnd then
        return parsed.reverse
      else
        let next ← statement
        statementsFrom bound (next :: parsed)

/-- Parses all statements up to the end. -/
def program : Parser Program := do
  statementsFrom (← get).rest []

end Parser

/-- The program that a token list spells. -/
def Program.ofTokens (tokens : List Token) : Except SyntaxError Program :=
  match Parser.program.run (Cursor.start tokens) with
  | .ok program _ => .ok program
  | .error error _ => .error error

end Reckoner
