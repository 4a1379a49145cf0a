import Reckoner.Text.Escape
import Reckoner.Text.Letter
import Reckoner.Token

/-! Scanning: a source is cut into maximal runs of digits and of letters and into single
other characters, and each run is a token, layout, or the end of the scan. -/

namespace Reckoner

/-- The scan met a character that no token holds. -/
structure LexicalError where
  character : Char
  line : Nat
  deriving DecidableEq, Repr

/-- The message for a character that no token holds. -/
def LexicalError.message (error : LexicalError) : String :=
  s!"Error on line {error.line}: Unrecognized character '"
    ++ Text.escape error.character
    ++ s!"' (code {error.character.toNat}) found in source."

/-- Layout separates tokens and leaves none itself. -/
def isLayout (c : Char) : Bool :=
  c == ' ' || c == '\t' || c == '\n'

/-- Whether two neighbouring characters belong to one token: two digits or two letters. -/
def joins (a b : Char) : Bool :=
  (a.isDigit && b.isDigit) || (Text.isLetter a && Text.isLetter b)

/-- The tokens that are one character long. -/
def signKind? : Char → Option TokenKind
  | '+' | '-' | '*' | '/' | '%' => some .operator
  | '=' => some .equals
  | '(' => some .openParen
  | ')' => some .closeParen
  | _ => none

/-- The kind of a run of letters: a keyword if the whole run spells one. -/
def wordKind (word : List Char) : TokenKind :=
  if word = ['n', 'u', 'l', 'l'] then
    .nullKeyword
  else if word = ['l', 'e', 't'] then
    .letKeyword
  else
    .identifier

/-- The kind of the token that a run spells, told by its first character. -/
def runKind? : List Char → Option TokenKind
  | [] => none
  | first :: rest =>
      if first.isDigit then
        some .number
      else if Text.isLetter first then
        some (wordKind (first :: rest))
      else
        signKind? first

/-- Turns runs into tokens from the given line on, behind the tokens already found, which
are kept in reverse. Newlines in a run count for the lines of all that follows.
-/
def scanRuns (line : Nat) (found : List Token) : List (List Char)
    → Except LexicalError (List Token)
  | [] => .ok (Token.endOfInput line :: found).reverse
  | run :: rest =>
      match runKind? run with
      | some kind =>
          scanRuns line ({ kind := kind, text := String.ofList run, line := line } :: found) rest
      | none =>
          match run.find? (! isLayout ·) with
          | some character => .error { character := character, line := line }
          | none => scanRuns (line + run.count '\n') found rest

/-- The tokens of a source, whose lines are counted from one. -/
def scan (source : String) : Except LexicalError (List Token) :=
  scanRuns 1 [] (source.toList.splitBy joins)

end Reckoner
