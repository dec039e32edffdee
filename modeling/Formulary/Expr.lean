import Formulary.Identifier
import Formulary.Number.Layout
import Formulary.Operator

/-!
# Expression trees

Numbers and variables are the leaves, operators the inner nodes. `Expr.text` writes a tree with a
pair of brackets around every operation, so that the text shows the tree; `Expr.eval` computes its
value. The test `==` compares numbers as floating-point equality does: a zero equals a negative
zero, and not-a-number does not equal itself.
-/

namespace Formulary

/-- An arithmetic expression. -/
inductive Expr
  | number (value : Float)
  | variable (name : String)
  | binary (left : Expr) (op : Operator) (right : Expr)
deriving BEq

namespace Expr

/-- The number of nodes. -/
def size : Expr → Nat
  | number _ => 1
  | .variable _ => 1
  | binary l _ r => 1 + l.size + r.size

/-- The number of operations on the longest way from the root to a leaf. -/
def height : Expr → Nat
  | number _ => 0
  | .variable _ => 0
  | binary l _ r => 1 + max l.height r.height

/-- The names on the variable leaves, from left to right and with repeats. -/
def names : Expr → List String
  | number _ => []
  | .variable name => [name]
  | binary l _ r => l.names ++ r.names

/-- The value of the tree when each variable has the value that `value` gives it. -/
def eval (value : String → Float) : Expr → Float
  | number x => x
  | .variable name => value name
  | binary l op r => op.apply (l.eval value) (r.eval value)

/-- A variable as it is written: as it stands if it is an identifier, and in braces otherwise. -/
def nameText (name : String) : String :=
  if Identifier.isValid name.toList then name else "\x7b" ++ name ++ "\x7d"

/-- The tree in brackets. -/
def text : Expr → String
  | number x => Number.text x
  | .variable name => nameText name
  | binary l op r => "(" ++ l.text ++ " " ++ op.text ++ " " ++ r.text ++ ")"

end Expr

end Formulary
