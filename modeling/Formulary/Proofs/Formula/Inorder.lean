import Formulary.Proofs.Formula.Evaluation

/-!
# The order of the tokens in the tree

Read in order, the left side of an operation, its operator and its right side, a tree gives back the
tokens that it was parsed from but for the brackets (`Derives.withoutBrackets_eq`). So parsing loses
no value and no operator, and changes the order of none. A tree has one leaf more than it has
operations, which relates its size to the number of operators (`Expr.size_eq_countP_inorder`). The
consequences for a parse and for a formula are in `Expr.inorder_of_parse`.
-/

namespace Formulary

namespace Token

/-- Whether the token is a bracket, which leaves no node in a tree. -/
def isBracket : Token → Bool
  | openBracket | closeBracket => true
  | _ => false

/-- Whether the token is an operator. -/
def isOperator : Token → Bool
  | operator _ => true
  | _ => false

/-- The tokens but for the brackets. -/
def withoutBrackets (tokens : List Token) : List Token :=
  tokens.filter fun t => !t.isBracket

theorem withoutBrackets_append (ts us : List Token) :
    withoutBrackets (ts ++ us) = withoutBrackets ts ++ withoutBrackets us :=
  List.filter_append ..

theorem countP_isOperator_withoutBrackets (ts : List Token) :
    (withoutBrackets ts).countP isOperator = ts.countP isOperator := by
  rw [withoutBrackets, List.countP_filter]
  refine List.countP_congr fun t _ => ?_
  cases t <;> simp [isOperator, isBracket]

end Token

namespace Expr

/-- The nodes of a tree, the left side, the operator and then the right side. -/
def inorder : Expr → List Token
  | number x => [.number x]
  | .variable name => [.variable name]
  | binary l op r => l.inorder ++ .operator op :: r.inorder

theorem length_inorder (t : Expr) : t.inorder.length = t.size := by
  induction t with
  | number x => rfl
  | «variable» name => rfl
  | binary l op r ihl ihr =>
    rw [inorder, List.length_append, List.length_cons, ihl, ihr, size]
    omega

theorem size_eq_countP_inorder (t : Expr) :
    t.size = 2 * t.inorder.countP Token.isOperator + 1 := by
  induction t with
  | number x => rfl
  | «variable» name => rfl
  | binary l op r ihl ihr =>
    have hop : Token.isOperator (.operator op) = true := rfl
    rw [size, ihl, ihr, inorder, List.countP_append, List.countP_cons_of_pos hop]
    omega

end Expr

/-- The tokens of an expression are the nodes of its tree in order, and brackets. -/
theorem Grammar.Derives.withoutBrackets_eq {c : Grammar.Category} {ts : List Token} {t : Expr}
    (h : Derives c ts t) : Token.withoutBrackets ts = t.inorder := by
  induction h with
  | number x => rfl
  | «variable» name => rfl
  | @brackets ts t _ ih =>
    show Token.withoutBrackets (ts ++ [.closeBracket]) = _
    rw [Token.withoutBrackets_append, ih]
    exact List.append_nil _
  | @operation ls rs l r op _ _ ihl ihr =>
    rw [Token.withoutBrackets_append, ihl, Expr.inorder, ← ihr]
    rfl
  | ofProduct _ ih | ofPower _ ih | ofAtom _ ih => exact ih

/-- A tree has one node for each operator of its tokens and one leaf more than that. -/
theorem Grammar.Derives.size_eq {c : Grammar.Category} {ts : List Token} {t : Expr}
    (h : Derives c ts t) : t.size = 2 * ts.countP Token.isOperator + 1 := by
  rw [← Token.countP_isOperator_withoutBrackets, h.withoutBrackets_eq, ← t.size_eq_countP_inorder]

/-- A tree that was parsed, read in order, is the token list without the brackets. Its variables are
those of the tokens in their order, with repeats, and it has as many nodes as there are tokens
other than brackets, one more than twice the number of operators. A formula has such a tree, and
the names of the tokens are those that it requires. -/
theorem Expr.inorder_of_parse (limits : Limits) :
    (∀ ts t, (parse limits ts).result = .ok t →
      t.inorder = Token.withoutBrackets ts ∧ Token.names ts = t.names ∧
        t.size = (Token.withoutBrackets ts).length ∧ t.size = 2 * ts.countP Token.isOperator + 1) ∧
    ∀ source f, (Formula.compile limits source).result = .ok f →
      ∃ ts, (Token.tokenize source).result = .ok ts ∧ (parse limits ts).result = .ok f.tree ∧
        f.required = Token.names ts ∧ f.required = f.tree.names := by
  constructor
  · intro ts t h
    obtain ⟨hderives, -⟩ := derives_of_parse h
    have hinorder := hderives.withoutBrackets_eq
    refine ⟨hinorder.symm, hderives.names_eq, ?_, hderives.size_eq⟩
    rw [hinorder, length_inorder]
  · intro source f h
    obtain ⟨ts, hscan, hparse, -, hrequired⟩ := Formula.exists_tokens_of_compile h
    exact ⟨ts, hscan, hparse, hrequired, Formula.required_eq_names h⟩

/-- The tokens of `(x-y)*x`, and the formula. -/
theorem Expr.inorder_of_parse_difference :
    let difference : Expr := .binary (.variable "x") .subtract (.variable "y")
    let product : Expr := .binary difference .multiply (.variable "x")
    let ts : List Token := [.openBracket, .variable "x", .operator .subtract, .variable "y",
      .closeBracket, .operator .multiply, .variable "x"]
    (parse {} ts).result = .ok product ∧ product.inorder = Token.withoutBrackets ts ∧
    product.size = 2 * ts.countP Token.isOperator + 1 ∧
    (Formula.compile {} "(x-y)*x").result = .ok ⟨"(x-y)*x", product, ["x", "y", "x"]⟩ ∧
    ["x", "y", "x"] = product.names := by
  intro difference product ts
  have hparse : (parse {} ts).result = .ok product := by with_unfolding_all rfl
  have hcompile : (Formula.compile {} "(x-y)*x").result =
      .ok ⟨"(x-y)*x", product, ["x", "y", "x"]⟩ := by with_unfolding_all rfl
  obtain ⟨htree, hformula⟩ := inorder_of_parse {}
  obtain ⟨hinorder, -, -, hsize⟩ := htree ts product hparse
  obtain ⟨-, -, -, -, hnames⟩ := hformula _ _ hcompile
  exact ⟨hparse, hinorder, hsize, hcompile, hnames⟩

end Formulary
