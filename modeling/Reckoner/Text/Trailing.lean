/-! Texts without the unwanted characters at their end. -/

namespace Reckoner.Text

/-- The text without its longest final part whose characters all satisfy `p`. -/
def dropTrailing (p : Char → Bool) (text : List Char) : List Char :=
  (text.reverse.dropWhile p).reverse

end Reckoner.Text
