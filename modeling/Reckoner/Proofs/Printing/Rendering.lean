import Reckoner.Proofs.Numbers.Whole
import Reckoner.Proofs.Grammar.Phrase
import Reckoner.Text.Letter

/-! Expressions as texts, with the fewest parentheses. An operand stands in parentheses where
the grammar would give its operator to another tree without them.
-/

namespace Reckoner

/-- A text in parentheses, or as it is. -/
def parenthesize (wrapped : Bool) (text : String) : String :=
  if wrapped then "(" ++ text ++ ")" else text

/-- A name that can be written: a run of letters that is no keyword. -/
structure IsName (name : String) : Prop where
  nonempty : name ≠ ""
  letters : ∀ c ∈ name.toList, Text.isLetter c
  notLet : name ≠ "let"
  notNull : name ≠ "null"

/-- The most parentheses that a text opens at once behind those already open. -/
def mostOpen (opened : Nat) : List Char → Nat
  | [] => opened
  | '(' :: rest => max opened (mostOpen (opened + 1) rest)
  | ')' :: rest => max opened (mostOpen (opened - 1) rest)
  | _ :: rest => mostOpen opened rest

namespace Expr

/-- Whether an expression stands in parentheses on the left of an operator: if it is additive
and the operator is multiplicative.
-/
def wrapsLeft (op : Operator) : Expr → Bool
  | binary _ inner _ _ => inner.isAdditive && op.isMultiplicative
  | number .. | null _ | reference .. => false

/-- Whether an expression stands in parentheses on the right of an operator: if its operator
is of the same or of the lower tier.
-/
def wrapsRight (op : Operator) : Expr → Bool
  | binary _ inner _ _ => inner.isAdditive || op.isMultiplicative
  | number .. | null _ | reference .. => false

/-- The text of an expression. -/
def render : Expr → String
  | number value _ => value.text
  | null _ => "null"
  | reference name _ => name
  | binary left op right _ =>
      parenthesize (left.wrapsLeft op) left.render ++ " " ++ op.symbol ++ " "
        ++ parenthesize (right.wrapsRight op) right.render

/-- An expression can be written if its literals are whole and its names can be written. -/
def Writable : Expr → Prop
  | number value _ => value.IsWhole
  | null _ => True
  | reference name _ => IsName name
  | binary left _ right _ => left.Writable ∧ right.Writable

/-- All literals of an expression are finite. -/
def HasFiniteLiterals : Expr → Prop
  | number value _ => value.IsFinite
  | null _ | reference .. => True
  | binary left _ right _ => left.HasFiniteLiterals ∧ right.HasFiniteLiterals

/-- How many parentheses the text of an expression opens at once. -/
def nesting : Expr → Nat
  | number .. | null _ | reference .. => 0
  | binary left op right _ =>
      max (left.nesting + (left.wrapsLeft op).toNat)
        (right.nesting + (right.wrapsRight op).toNat)

end Expr

-----------------------------------------------------------------------------------------
-- Open parentheses
-----------------------------------------------------------------------------------------

theorem le_mostOpen (opened : Nat) (text : List Char)
    : opened ≤ mostOpen opened text := by
  fun_induction mostOpen opened text with
  | case1 opened => exact Nat.le_refl _
  | case2 opened rest ih => exact Nat.le_max_left ..
  | case3 opened rest ih => exact Nat.le_max_left ..
  | case4 opened c rest notOpening notClosing ih => exact ih

/-- A piece of text opens a number of parentheses at once and closes all of them, wherever it
stands.
-/
def Nests (piece : List Char) (groups : Nat) : Prop :=
  ∀ opened rest, mostOpen opened (piece ++ rest) = max (opened + groups) (mostOpen opened rest)

namespace Nests

variable {piece more : List Char} {groups others : Nat}

theorem mostOpen_eq (nests : Nests piece groups)
    : mostOpen 0 piece = groups := by
  have alone := nests 0 []
  rw [List.append_nil] at alone
  simpa [mostOpen] using alone

/-- A text without parentheses opens none, by induction on it. -/
theorem plain (silent : ∀ c ∈ piece, c ≠ '(' ∧ c ≠ ')')
    : Nests piece 0 := by
  intro opened rest
  rw [Nat.add_zero, Nat.max_eq_right (le_mostOpen opened rest)]
  induction piece with
  | nil => rfl
  | cons c piece ih =>
      have first := silent c List.mem_cons_self
      rw [List.cons_append, mostOpen]
      · exact ih fun d member => silent d (List.mem_cons_of_mem c member)
      · exact first.1
      · exact first.2

theorem single {c : Char} (silent : c ≠ '(' ∧ c ≠ ')')
    : Nests [c] 0 :=
  plain (List.forall_mem_singleton.mpr silent)

theorem append (left : Nests piece groups) (right : Nests more others)
    : Nests (piece ++ more) (max groups others) := by
  intro opened rest
  rw [List.append_assoc, left, right]
  omega

theorem group (inner : Nests piece groups)
    : Nests ('(' :: (piece ++ [')'])) (groups + 1) := by
  intro opened rest
  have behind := le_mostOpen opened rest
  have text : ('(' :: (piece ++ [')'])) ++ rest = '(' :: (piece ++ ')' :: rest) := by simp
  rw [text, mostOpen, inner, mostOpen, Nat.add_sub_cancel]
  omega

end Nests
end Reckoner
