import Reckoner.Operator

/-! Tokens: the kinds of words and signs a source is made of, and how messages show them. -/

namespace Reckoner

/-- What a token is. Every token list ends with `endOfInput`. -/
inductive TokenKind
  | number
  | identifier
  | nullKeyword
  | letKeyword
  | operator
  | equals
  | openParen
  | closeParen
  | endOfInput
  deriving DecidableEq, Repr

/-- The name of a kind of token in messages. -/
def TokenKind.description : TokenKind → String
  | number => "number"
  | identifier => "identifier"
  | nullKeyword => "'null'"
  | letKeyword => "'let'"
  | operator => "operator"
  | equals => "'='"
  | openParen => "'('"
  | closeParen => "')'"
  | endOfInput => "end of input"

/-- A token, its text in the source, and the line it starts on. -/
structure Token where
  kind : TokenKind
  text : String
  line : Nat
  deriving DecidableEq, Repr

namespace Token

/-- The token after the last word of a source. -/
def endOfInput (line : Nat) : Token :=
  { kind := .endOfInput, text := "", line := line }

/-- How messages show a token: its text in quotes, after the kind where the text alone does
not tell it.
-/
def description (token : Token) : String :=
  match token.kind with
  | .endOfInput => "end of input"
  | .number | .identifier | .operator => token.kind.description ++ " '" ++ token.text ++ "'"
  | .nullKeyword | .letKeyword | .equals | .openParen | .closeParen => "'" ++ token.text ++ "'"

/-- The operator that a token stands for. Only tokens of the operator kind stand for one. -/
def operator? (token : Token) : Option Operator :=
  match token.kind with
  | .operator => Operator.ofSymbol? token.text
  | _ => none

end Token
end Reckoner
