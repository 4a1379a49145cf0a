import Reckoner.Expr.Evaluate
import Reckoner.Proofs.Numbers.Whole
import Reckoner.Proofs.Printing.Rendering

/-! Chains of operators, calculated in one pass. A calculator that goes over a chain once, with a
value at hand and at most one addition or subtraction waiting, comes to what evaluating the
chain's tree does: the same value, or the same error first.
-/

namespace Reckoner

/-- An operand without parentheses: a run of digits, null or a name. -/
inductive Operand
  | digits (run : List Char) (nonempty : run ≠ []) (all : ∀ c ∈ run, c.isDigit)
  | null
  | reference (name : String) (isName : IsName name)

namespace Operand

/-- The text of an operand. -/
def text : Operand → String
  | digits run _ _ => String.ofList run
  | null => "null"
  | reference name _ => name

/-- The value of an operand on the first line. A run of digits is the number nearest to what it
spells.
-/
def value (env : Environment) : Operand → Except EvalError Value
  | digits run _ _ => .ok (.number ((Decimal.ofDigits run).nearest false))
  | null => .ok .null
  | reference name _ =>
      match env.lookup name with
      | some value => .ok value
      | none => .error (.unknownVariable name 1)

/-- The leaf that an operand is read as. -/
def leaf : Operand → Expr
  | digits run _ _ => .number ((Decimal.ofDigits run).nearest false) 1
  | null => .null 1
  | reference name _ => .reference name 1

theorem denote_leaf (operand : Operand) (env : Environment)
    : operand.leaf.denote env = operand.value env := by
  cases operand with
  | digits run nonempty all | null => simp only [leaf, value, Expr.denote]
  | reference name isName =>
      cases found : env.lookup name <;> simp only [leaf, value, Expr.denote, found]

end Operand

/-- Operands with an operator between each two of them: the first one, and each other one with
the operator before it.
-/
structure Chain where
  first : Operand
  rest : List (Operator × Operand)

/-- An operator and the operand behind it as they go on with a source. -/
def linkText : Operator × Operand → String
  | (op, operand) => " " ++ op.symbol ++ " " ++ operand.text

/-- The source of a chain, with single spaces around its operators. -/
def Chain.source (chain : Chain) : String :=
  chain.first.text ++ String.join (chain.rest.map linkText)

/-- What a pass over a chain keeps: what it has of the product that it is in, and the addition or
subtraction that waits for this product, if there is one, with all that stands before it.
-/
structure Tally (α : Type) where
  pending : Option (α × Operator)
  current : α

variable {env : Environment}

-----------------------------------------------------------------------------------------
-- The calculator
-----------------------------------------------------------------------------------------

namespace Tally

/-- Applies the pending operation, if there is one, to the current value. -/
def settle (tally : Tally Value) : Except EvalError Value :=
  match tally.pending with
  | none => .ok tally.current
  | some (left, op) => op.apply left tally.current 1

/-- Takes in an operator and the operand behind it. A multiplicative operator is applied to the
current value at once. An additive one settles what is pending, before its operand is read, and is
pending itself.
-/
def press (env : Environment) (tally : Tally Value)
    : Operator × Operand → Except EvalError (Tally Value)
  | (op, operand) =>
      if op.isAdditive then do
        let settled ← tally.settle
        let next ← operand.value env
        return { pending := some (settled, op), current := next }
      else do
        let next ← operand.value env
        let result ← op.apply tally.current next 1
        return { tally with current := result }

end Tally

/-- What the calculator comes to on a chain: it takes in the operators from the left, up to the
first error, and settles what is pending at the end.
-/
def Chain.calculate (env : Environment) (chain : Chain) : Except EvalError Value := do
  let first ← chain.first.value env
  let last ← chain.rest.foldlM (Tally.press env) { pending := none, current := first }
  last.settle

-----------------------------------------------------------------------------------------
-- The tree of a chain
-----------------------------------------------------------------------------------------

namespace Tally

/-- Joins the pending left side, if there is one, with the current tree. -/
def close (tally : Tally Expr) : Expr :=
  match tally.pending with
  | none => tally.current
  | some (left, op) => .binary left op tally.current 1

/-- Puts an operator and the operand behind it onto the trees so far. -/
def graft (tally : Tally Expr) : Operator × Operand → Tally Expr
  | (op, operand) =>
      if op.isAdditive then
        { pending := some (tally.close, op), current := operand.leaf }
      else
        { tally with current := .binary tally.current op operand.leaf 1 }

/-- What the trees so far come to, the pending left side first. -/
def denote (env : Environment) (tally : Tally Expr) : Except EvalError (Tally Value) :=
  match tally.pending with
  | none => do
      let current ← tally.current.denote env
      return { pending := none, current := current }
  | some (left, op) => do
      let left ← left.denote env
      let current ← tally.current.denote env
      return { pending := some (left, op), current := current }

end Tally

/-- The tree of a chain, a sum of products, both of which are built to the left. -/
def Chain.tree (chain : Chain) : Expr :=
  (chain.rest.foldl Tally.graft { pending := none, current := chain.first.leaf }).close

theorem Expr.denote_binary (left : Expr) (op : Operator) (right : Expr) (line : Nat)
    : (binary left op right line).denote env
      = left.denote env >>= fun a => right.denote env >>= fun b => op.apply a b line := by
  rw [denote]
  cases left.denote env with
  | error error => rfl
  | ok a => cases right.denote env <;> rfl

namespace Tally

theorem denote_close (tally : Tally Expr)
    : tally.close.denote env = tally.denote env >>= settle := by
  obtain ⟨pending, current⟩ := tally
  cases pending with
  | none =>
      simp only [close, denote]
      cases current.denote env <;> rfl
  | some left => simp [close, denote, settle, Expr.denote_binary]

/-- Putting an operator onto trees goes along with taking it in where they are values. -/
theorem denote_graft (tally : Tally Expr) (next : Operator × Operand)
    : (tally.graft next).denote env = tally.denote env >>= fun values => values.press env next := by
  obtain ⟨op, operand⟩ := next
  cases additive : op.isAdditive with
  | true => simp [graft, press, additive, denote, denote_close, operand.denote_leaf]
  | false =>
      obtain ⟨pending, current⟩ := tally
      cases pending <;>
        simp [graft, press, additive, denote, Expr.denote_binary, operand.denote_leaf]

/-- The same of a whole run over what is left of a chain, by induction on it. -/
theorem denote_foldl_graft (tally : Tally Expr) (rest : List (Operator × Operand))
    : (rest.foldl graft tally).denote env
      = tally.denote env >>= fun values => rest.foldlM (press env) values := by
  induction rest generalizing tally with
  | nil => simp
  | cons next rest ih => simp only [List.foldl_cons, List.foldlM_cons, ih, denote_graft, bind_assoc]

end Tally

/-- Evaluating the tree of a chain is calculating it in one pass. -/
theorem Chain.denote_tree (chain : Chain)
    : chain.tree.denote env = chain.calculate env := by
  rw [tree, Tally.denote_close, Tally.denote_foldl_graft, calculate]
  simp [Tally.denote, Operand.denote_leaf]

end Reckoner
