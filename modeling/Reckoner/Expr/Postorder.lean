import Reckoner.Expr

/-! Expressions in postorder: both operands before their operator. The listing and its
reading keep a list of pending work, so the shape of a tree costs them no depth.
-/

namespace Reckoner

/-- One node of an expression without its operands. -/
inductive Node
  | number (value : Binary64) (line : Nat)
  | null (line : Nat)
  | reference (name : String) (line : Nat)
  | apply (op : Operator) (line : Nat)
  deriving DecidableEq

/-- Lists the nodes of the pending expressions in front of those already listed. The last
pending expression comes first in the list.
-/
def postorderOnto : List Expr → List Node → List Node
  | [], listed => listed
  | .number value line :: pending, listed =>
      postorderOnto pending (.number value line :: listed)
  | .null line :: pending, listed => postorderOnto pending (.null line :: listed)
  | .reference name line :: pending, listed =>
      postorderOnto pending (.reference name line :: listed)
  | .binary left op right line :: pending, listed =>
      postorderOnto (right :: left :: pending) (.apply op line :: listed)
termination_by pending => Expr.totalSize pending
decreasing_by all_goals simp only [Expr.totalSize, Expr.size]; omega

/-- The nodes of an expression, operands before operators and left before right. -/
def Expr.postorder (e : Expr) : List Node :=
  postorderOnto [e] []

/-- Listing one more expression puts its own nodes in front.
Witness: induction on the expression; of a binary node, the right operand is listed first
and the left operand in front of it.
-/
theorem postorderOnto_cons (e : Expr) (pending : List Expr) (listed : List Node)
    : postorderOnto (e :: pending) listed
      = postorderOnto pending (e.postorder ++ listed) := by
  unfold Expr.postorder
  induction e generalizing pending listed with
  | number value line => simp only [postorderOnto, List.cons_append, List.nil_append]
  | null line => simp only [postorderOnto, List.cons_append, List.nil_append]
  | reference name line => simp only [postorderOnto, List.cons_append, List.nil_append]
  | binary left op right line leftIH rightIH =>
      rw [postorderOnto, postorderOnto, rightIH, leftIH, rightIH [left],
        leftIH [] (postorderOnto [right] [] ++ [Node.apply op line])]
      simp only [postorderOnto, List.append_assoc, List.cons_append, List.nil_append]

namespace Expr

@[simp] theorem postorder_number (value : Binary64) (line : Nat)
    : (number value line).postorder = [.number value line] := by
  simp only [postorder, postorderOnto]

@[simp] theorem postorder_null (line : Nat)
    : (null line).postorder = [.null line] := by
  simp only [postorder, postorderOnto]

@[simp] theorem postorder_reference (name : String) (line : Nat)
    : (reference name line).postorder = [.reference name line] := by
  simp only [postorder, postorderOnto]

/-- A binary node follows the nodes of its left and then of its right operand. -/
@[simp] theorem postorder_binary (left : Expr) (op : Operator) (right : Expr) (line : Nat)
    : (binary left op right line).postorder
      = left.postorder ++ right.postorder ++ [.apply op line] := by
  rw [postorder, postorderOnto, postorderOnto_cons, postorderOnto_cons, postorderOnto]
  simp only [List.append_assoc]

/-- Builds expressions from nodes in postorder, on top of those already built. -/
def build : List Node → List Expr → Option Expr
  | [], [e] => some e
  | [], _ => none
  | .number value line :: nodes, built => build nodes (.number value line :: built)
  | .null line :: nodes, built => build nodes (.null line :: built)
  | .reference name line :: nodes, built => build nodes (.reference name line :: built)
  | .apply op line :: nodes, right :: left :: built =>
      build nodes (.binary left op right line :: built)
  | .apply _ _ :: _, _ => none

/-- The expression with the given nodes in postorder, if there is one. -/
def ofPostorder? (nodes : List Node) : Option Expr :=
  build nodes []

/-- Building from an expression's nodes puts it on top of what was built before.
Witness: induction on the expression, for any nodes that follow.
-/
theorem build_postorder_append (e : Expr) (nodes : List Node) (built : List Expr)
    : build (e.postorder ++ nodes) built = build nodes (e :: built) := by
  induction e generalizing nodes built with
  | number value line => simp [build]
  | null line => simp [build]
  | reference name line => simp [build]
  | binary left op right line leftIH rightIH =>
      simp [leftIH, rightIH, build]

/-- The listing of an expression is read back as that expression. -/
theorem ofPostorder?_postorder (e : Expr)
    : ofPostorder? e.postorder = some e := by
  have built := build_postorder_append e [] []
  rw [List.append_nil] at built
  rw [ofPostorder?, built, build]

end Expr
end Reckoner
