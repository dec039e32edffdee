import Formulary.Expr.Outcome
import Formulary.Logged

/-!
# Parsing

Operators of higher precedence bind more strongly, and operators of one precedence group to the
left. The parser climbs: `expression` reads an operand and then joins to it, with `operators`, every
operator that binds more strongly than a threshold, the right side of an operator being an
expression above the operator's own precedence. `operand` reads a number, a variable or an
expression in brackets. These three are known by their equations (`operand_eq`, `expression_eq`,
`operators_eq`).

Two limits hold during the parse: on how deeply brackets nest, and on how many operations are
stacked in one tree. `Expr.parse` reads a whole token list.
-/

namespace Formulary

namespace Parser

/-! ## Subtrees -/

/-- A tree that is being built, with the number of operations stacked in it. -/
structure Subtree where
  tree : Expr
  height : Nat

/-- Joins two trees by an operator, if the result is not too tall. -/
def fold (limits : Limits) (l : Subtree) (op : Operator) (r : Subtree) :
    Logged ParseError Subtree := do
  let height := 1 + max l.height r.height
  if limits.maxHeight < height then
    .fail (.treeTooTall limits.maxHeight)
  else
    .emit (.folding l.tree op r.tree)
    return ⟨.binary l.tree op r.tree, height⟩

theorem fold_eq_ok_iff {limits : Limits} {l r joined : Subtree} {op : Operator} :
    (fold limits l op r).result = .ok joined ↔ 1 + max l.height r.height ≤ limits.maxHeight ∧
      joined = ⟨.binary l.tree op r.tree, 1 + max l.height r.height⟩ := by
  simp only [fold]
  split
  case isTrue hlt => exact iff_of_false nofun fun h => Nat.not_lt.mpr h.1 hlt
  case isFalse hle =>
    exact ⟨fun h => ⟨Nat.not_lt.mp hle, (Except.ok.inj h).symm⟩, fun h => congrArg _ h.2.symm⟩

theorem fold_eq_error_iff {limits : Limits} {l r : Subtree} {op : Operator} {e : ParseError} :
    (fold limits l op r).result = .error e ↔
      limits.maxHeight < 1 + max l.height r.height ∧ e = .treeTooTall limits.maxHeight := by
  simp only [fold]
  split
  case isTrue hlt =>
    exact ⟨fun h => ⟨hlt, (Except.error.inj h).symm⟩, fun h => congrArg _ h.2.symm⟩
  case isFalse hle => exact iff_of_false nofun fun h => hle h.1

/-! ## Reading tokens -/

/-- A place in a token list: how many tokens were read, and those that are left. -/
structure Cursor where
  position : Nat
  rest : List Token

/-- The place after the next token, when `rest` is what follows it. -/
abbrev Cursor.advance (c : Cursor) (rest : List Token) : Cursor :=
  ⟨c.position + 1, rest⟩

/-- The places that are further on than `c`. -/
abbrev Cursor.Beyond (c : Cursor) : Type :=
  { c' : Cursor // c'.rest.length < c.rest.length }

/-- The places that are not before `c`. -/
abbrev Cursor.From (c : Cursor) : Type :=
  { c' : Cursor // c'.rest.length ≤ c.rest.length }

mutual

/-- Reads a value, `depth` brackets deep. -/
def readOperand (limits : Limits) (depth : Nat) (c : Cursor) :
    Logged ParseError (Subtree × c.Beyond) :=
  match hc : c.rest with
  | [] => .fail .unexpectedEnd
  | .number x :: rest => return (⟨.number x, 0⟩, ⟨c.advance rest, by simp [hc]⟩)
  | .variable name :: rest => return (⟨.variable name, 0⟩, ⟨c.advance rest, by simp [hc]⟩)
  | .openBracket :: rest =>
    if limits.maxDepth ≤ depth then
      .fail (.nestingTooDeep limits.maxDepth)
    else do
      let (inner, ⟨c', hc'⟩) ← readExpression limits (depth + 1) 0 (c.advance rest)
      match hr : c'.rest with
      | .closeBracket :: rest' => return (inner, ⟨c'.advance rest', by grind⟩)
      | [] => .fail (.unclosedBracket c.position)
      | t :: _ => .fail (.unexpectedToken .closeBracket t c'.position)
  | t :: _ => .fail (.unexpectedToken .value t c.position)
termination_by 2 * c.rest.length
decreasing_by all_goals grind

/-- Reads an expression up to an operator that binds no more strongly than `threshold`. -/
def readExpression (limits : Limits) (depth threshold : Nat) (c : Cursor) :
    Logged ParseError (Subtree × c.Beyond) := do
  let (left, ⟨c', hc'⟩) ← readOperand limits depth c
  let (tree, ⟨c'', hc''⟩) ← readOperators limits depth threshold left c'
  return (tree, ⟨c'', by omega⟩)
termination_by 2 * c.rest.length + 1
decreasing_by all_goals omega

/-- Joins to `left` the operators that bind more strongly than `threshold`. -/
def readOperators (limits : Limits) (depth threshold : Nat) (left : Subtree) (c : Cursor) :
    Logged ParseError (Subtree × c.From) :=
  match hc : c.rest with
  | [] => return (left, ⟨c, Nat.le_refl _⟩)
  | .operator op :: rest =>
    if op.precedence ≤ threshold then
      return (left, ⟨c, Nat.le_refl _⟩)
    else do
      let (right, ⟨c', hc'⟩) ← readExpression limits depth op.precedence (c.advance rest)
      let joined ← fold limits left op right
      let (tree, ⟨c'', hc''⟩) ← readOperators limits depth threshold joined c'
      return (tree, ⟨c'', by grind⟩)
  | .closeBracket :: _ => return (left, ⟨c, Nat.le_refl _⟩)
  | t :: _ => .fail (.unexpectedToken .operatorOrClose t c.position)
termination_by 2 * c.rest.length
decreasing_by all_goals grind

end

/-! ## The parser by its equations

The three functions without the proofs that they move on. -/

/-- Reads a value, `depth` brackets deep, and says where it ends. -/
def operand (limits : Limits) (depth : Nat) (c : Cursor) : Logged ParseError (Subtree × Cursor) :=
  (fun (tree, c') => (tree, c'.val)) <$> readOperand limits depth c

/-- Reads an expression up to an operator that binds no more strongly than `threshold`, and says
where it ends. -/
def expression (limits : Limits) (depth threshold : Nat) (c : Cursor) :
    Logged ParseError (Subtree × Cursor) :=
  (fun (tree, c') => (tree, c'.val)) <$> readExpression limits depth threshold c

/-- Joins to `left` the operators that bind more strongly than `threshold`, and says where they
end. -/
def operators (limits : Limits) (depth threshold : Nat) (left : Subtree) (c : Cursor) :
    Logged ParseError (Subtree × Cursor) :=
  (fun (tree, c') => (tree, c'.val)) <$> readOperators limits depth threshold left c

theorem operand_eq (limits : Limits) (depth : Nat) (c : Cursor) :
    operand limits depth c =
      match c.rest with
      | [] => .fail .unexpectedEnd
      | .number x :: rest => return (⟨.number x, 0⟩, c.advance rest)
      | .variable name :: rest => return (⟨.variable name, 0⟩, c.advance rest)
      | .openBracket :: rest =>
        if limits.maxDepth ≤ depth then
          .fail (.nestingTooDeep limits.maxDepth)
        else do
          let (inner, c') ← expression limits (depth + 1) 0 (c.advance rest)
          match c'.rest with
          | .closeBracket :: rest' => return (inner, c'.advance rest')
          | [] => .fail (.unclosedBracket c.position)
          | t :: _ => .fail (.unexpectedToken .closeBracket t c'.position)
      | t :: _ => .fail (.unexpectedToken .value t c.position) := by
  obtain ⟨position, rest⟩ := c
  rw [operand, readOperand]
  rcases rest with _ | ⟨t, rest⟩
  · rfl
  · cases t <;> simp [expression, bind_map_left]
    split
    · simp
    · simp only [map_bind]
      congr 1
      funext a
      split <;> simp_all

theorem expression_eq (limits : Limits) (depth threshold : Nat) (c : Cursor) :
    expression limits depth threshold c = (do
      let (left, c') ← operand limits depth c
      operators limits depth threshold left c') := by
  rw [expression, readExpression]
  simp [operand, operators, map_bind, bind_map_left]

theorem operators_eq (limits : Limits) (depth threshold : Nat) (left : Subtree) (c : Cursor) :
    operators limits depth threshold left c =
      match c.rest with
      | [] => return (left, c)
      | .operator op :: rest =>
        if op.precedence ≤ threshold then
          return (left, c)
        else do
          let (right, c') ← expression limits depth op.precedence (c.advance rest)
          let joined ← fold limits left op right
          operators limits depth threshold joined c'
      | .closeBracket :: _ => return (left, c)
      | t :: _ => .fail (.unexpectedToken .operatorOrClose t c.position) := by
  obtain ⟨position, rest⟩ := c
  rw [operators, readOperators]
  rcases rest with _ | ⟨t, rest⟩
  · rfl
  · cases t <;> simp [expression, operators, bind_map_left]
    split
    · simp
    · simp [map_bind]

end Parser

/-- The tree of a whole token list. Whatever follows a complete expression is an error. -/
def Expr.parse (limits : Limits) (tokens : List Token) : Logged ParseError Expr := do
  .emit (.parsing tokens.length)
  if tokens.isEmpty then
    .fail .emptyExpression
  else
    let (built, c) ← Parser.expression limits 0 0 ⟨0, tokens⟩
    match c.rest with
    | [] =>
      .emit (.parsed built.tree)
      return built.tree
    | .closeBracket :: _ => .fail (.unmatchedBracket c.position)
    | t :: _ => .fail (.unexpectedToken .endOfExpression t c.position)

end Formulary
