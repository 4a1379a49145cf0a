import Reckoner.SyntaxError

/-! A read position in a token list. It moves forward only, and never past the end token. -/

namespace Reckoner

/-- The tokens not read yet, how many have been read, and how many groups are open. -/
structure Cursor where
  rest : List Token
  position : Nat
  depth : Nat
  deriving DecidableEq, Repr

/-- A parser reads tokens at a cursor. A failing parser leaves the cursor where it stopped. -/
abbrev Parser := EStateM SyntaxError Cursor

namespace Cursor

/-- The cursor before the first token of a list. -/
def start (tokens : List Token) : Cursor :=
  { rest := tokens, position := 0, depth := 0 }

/-- The next token. Behind the last one there is always an end token, on no line. -/
def peek (c : Cursor) : Token :=
  c.rest.headD (Token.endOfInput 0)

/-- Whether the next token is an end token. -/
def atEnd (c : Cursor) : Bool :=
  c.peek.kind = .endOfInput

/-- The cursor behind the next token. An end token is never passed. -/
def next (c : Cursor) : Cursor :=
  match c.rest with
  | [] => c
  | token :: rest =>
      if token.kind = .endOfInput then
        c
      else
        { c with rest := rest, position := c.position + 1 }

end Cursor

namespace Parser

/-- The next token, left in place. -/
def peek : Parser Token :=
  return (← get).peek

/-- Reads the next token. -/
def advance : Parser Token :=
  modifyGet fun c => (c.peek, c.next)

/-- Reads the next token if it is of the given kind, and otherwise fails in front of it. -/
def expect (kind : TokenKind) (context : String) : Parser Token := do
  let token ← peek
  if token.kind = kind then
    advance
  else
    throw (.expectedToken kind token context)

/-- Opens a group on a line, unless as many are open as may be. -/
def enterGroup (line : Nat) : Parser Unit := do
  let c ← get
  if maxOpenGroups ≤ c.depth then
    throw (.nestingTooDeep line)
  else
    set { c with depth := c.depth + 1 }

/-- Closes the innermost open group. -/
def leaveGroup : Parser Unit :=
  modify fun c => { c with depth := c.depth - 1 }

end Parser
end Reckoner
