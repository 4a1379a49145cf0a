/-! A visible spelling of any single character, for messages. -/

namespace Reckoner.Text

/-- Spells a character visibly: the control characters of layout, the quotes and the
backslash behind a backslash, printable ASCII as itself, and any other character by its
hexadecimal code in braces.
-/
def escape (c : Char) : String :=
  match c with
  | '\t' => "\\t"
  | '\r' => "\\r"
  | '\n' => "\\n"
  | '\'' => "\\'"
  | '"' => "\\\""
  | '\\' => "\\\\"
  | c =>
      if 0x20 ≤ c.toNat ∧ c.toNat ≤ 0x7E then
        c.toString
      else
        "\\u\x7b" ++ String.ofList (Nat.toDigits 16 c.toNat) ++ "\x7d"

end Reckoner.Text
