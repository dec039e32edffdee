import Formulary.Expr
import Formulary.Token

/-!
# Trees as token lists

`Expr.postorder` lists the nodes of a tree with every operator after its two sides. The list
determines the tree: `Expr.ofPostorder?` builds it again from the left, with a stack of the trees
that are complete so far (`ofPostorder?_postorder`).
-/

namespace Formulary.Expr

/-- The nodes of a tree, the left side, the right side and then the operator. -/
def postorder : Expr → List Token
  | number x => [.number x]
  | .variable name => [.variable name]
  | binary l op r => l.postorder ++ r.postorder ++ [.operator op]

/-- Puts a node on a stack of trees. An operator takes its two sides off the stack. -/
def push (stack : List Expr) : Token → Option (List Expr)
  | .number x => some (number x :: stack)
  | .variable name => some (.variable name :: stack)
  | .operator op =>
    match stack with
    | r :: l :: stack => some (binary l op r :: stack)
    | _ => none
  | _ => none

/-- The tree with the given nodes in postorder. -/
def ofPostorder? (nodes : List Token) : Option Expr :=
  match nodes.foldlM push [] with
  | some [tree] => some tree
  | _ => none

theorem foldlM_push_postorder (t : Expr) (stack : List Expr) :
    t.postorder.foldlM push stack = some (t :: stack) := by
  induction t generalizing stack with
  | number x => simp [postorder, push]
  | «variable» name => simp [postorder, push]
  | binary l op r ihl ihr => simp [postorder, List.foldlM_append, ihl, ihr, push]

theorem ofPostorder?_postorder (t : Expr) : ofPostorder? t.postorder = some t := by
  simp [ofPostorder?, foldlM_push_postorder]

end Formulary.Expr
