import Formulary.Proofs.Expr.Climbing

/-!
# Substituting an expression for a variable

In a token list, a variable gives way to the tokens of an expression in brackets
(`Token.substitute`); in a tree, to the tree of the expression (`Expr.substitute`). The grammar
relates the two (`Derives.substitute`): an expression in brackets is an atom, as the variable is, so
it may stand in every place where the variable stands, whatever the operators beside it.

The brackets nest no deeper than in the two lists together and the new pair
(`Derives.nesting_substitute_le`), and the trees stack no more operations than both
(`Expr.height_substitute_le`). Within limits that allow for this, the parser therefore accepts the
new list (`Expr.parse_substitute`).
-/

namespace Formulary

/-! ## Tokens -/

namespace Token

/-- The tokens with `inner` in brackets wherever the variable `name` was. -/
def substitute (tokens : List Token) (name : String) (inner : List Token) : List Token :=
  tokens.flatMap fun t =>
    if t = .variable name then .openBracket :: (inner ++ [.closeBracket]) else [t]

variable {name : String} {inner : List Token}

theorem substitute_variable (name : String) (inner : List Token) :
    substitute [.variable name] name inner = .openBracket :: (inner ++ [.closeBracket]) := by
  simp [substitute]

theorem substitute_variable_of_ne {other : String} (h : other ≠ name) :
    substitute [.variable other] name inner = [.variable other] := by
  simp [substitute, h]

theorem substitute_brackets (ts : List Token) :
    substitute (.openBracket :: (ts ++ [.closeBracket])) name inner =
      .openBracket :: (substitute ts name inner ++ [.closeBracket]) := by
  simp [substitute]

theorem substitute_operation (ls rs : List Token) (op : Operator) :
    substitute (ls ++ .operator op :: rs) name inner =
      substitute ls name inner ++ .operator op :: substitute rs name inner := by
  simp [substitute]

end Token

/-! ## Trees -/

namespace Expr

/-- The tree with `inner` wherever the variable `name` was. -/
def substitute (t : Expr) (name : String) (inner : Expr) : Expr :=
  match t with
  | number x => number x
  | .variable other => if other = name then inner else .variable other
  | binary l op r => binary (l.substitute name inner) op (r.substitute name inner)

variable {name : String} {inner : Expr}

theorem height_substitute_le (t : Expr) (name : String) (inner : Expr) :
    (t.substitute name inner).height ≤ t.height + inner.height := by
  induction t with
  | number x => exact Nat.zero_le _
  | «variable» other =>
    rw [substitute]
    split
    · exact Nat.le_add_left _ _
    · exact Nat.zero_le _
  | binary l op r ihl ihr =>
    simp only [substitute, height]
    omega

/-- The variables are those of the tree but for `name`, and those of what stands for it. -/
theorem mem_names_substitute {t : Expr} {other : String} :
    other ∈ (t.substitute name inner).names ↔
      other ∈ t.names ∧ other ≠ name ∨ name ∈ t.names ∧ other ∈ inner.names := by
  induction t with
  | number x => simp [substitute, names]
  | «variable» leaf =>
    rw [substitute]
    split
    case isTrue h =>
      subst h
      simp only [names, List.mem_singleton]
      grind
    case isFalse h =>
      simp only [names, List.mem_singleton]
      grind
  | binary l op r ihl ihr =>
    simp only [substitute, names, List.mem_append, ihl, ihr]
    grind

/-- The value is that of the tree when `name` has the value of what stands for it. -/
theorem eval_substitute (t : Expr) (value : String → Float) :
    (t.substitute name inner).eval value =
      t.eval fun other => if other = name then inner.eval value else value other := by
  induction t with
  | number x => rfl
  | «variable» other =>
    rw [substitute, eval]
    split <;> rfl
  | binary l op r ihl ihr => rw [substitute, eval, ihl, ihr, eval]

end Expr

/-! ## Derivations -/

namespace Grammar.Derives

variable {c : Category} {ts us : List Token} {t u : Expr}

/-- An expression in brackets may stand wherever a variable stands. -/
theorem substitute (h : Derives c ts t) (hu : Derives .sum us u) (name : String) :
    Derives c (Token.substitute ts name us) (t.substitute name u) := by
  induction h with
  | number x => exact .number x
  | «variable» other =>
    by_cases ho : other = name
    · subst ho
      rw [Token.substitute_variable, Expr.substitute, if_pos rfl]
      exact .brackets hu
    · rw [Token.substitute_variable_of_ne ho, Expr.substitute, if_neg ho]
      exact .variable other
  | brackets _ ih =>
    rw [Token.substitute_brackets]
    exact .brackets ih
  | operation op _ _ ihl ihr =>
    rw [Token.substitute_operation]
    exact .operation op ihl ihr
  | ofProduct _ ih => exact .ofProduct ih
  | ofPower _ ih => exact .ofPower ih
  | ofAtom _ ih => exact .ofAtom ih

theorem nesting_substitute_le (h : Derives c ts t) (hu : Derives .sum us u) (name : String) :
    Token.nesting (Token.substitute ts name us) ≤ Token.nesting ts + Token.nesting us + 1 := by
  induction h with
  | number x => exact Nat.zero_le _
  | «variable» other =>
    by_cases ho : other = name
    · subst ho
      rw [Token.substitute_variable, hu.nesting_brackets]
      omega
    · rw [Token.substitute_variable_of_ne ho]
      exact Nat.zero_le _
  | brackets h ih =>
    rw [Token.substitute_brackets, (h.substitute hu name).nesting_brackets, h.nesting_brackets]
    omega
  | operation op hl _ ihl ihr =>
    rw [Token.substitute_operation, (hl.substitute hu name).nesting_operation,
      hl.nesting_operation]
    omega
  | ofProduct _ ih | ofPower _ ih | ofAtom _ ih => exact ih

end Grammar.Derives

/-- Within limits for both, the parser reads the list with the expression put in as the tree with
the tree put in. -/
theorem Expr.parse_substitute {ts us : List Token} {t u : Expr} (ht : Grammar.Derives .sum ts t)
    (hu : Grammar.Derives .sum us u) (name : String) {limits : Limits}
    (hd : Token.nesting ts + Token.nesting us + 1 ≤ limits.maxDepth)
    (hh : t.height + u.height ≤ limits.maxHeight) :
    (parse limits (Token.substitute ts name us)).result = .ok (t.substitute name u) :=
  parse_of_derives (ht.substitute hu name)
    (Nat.le_trans (ht.nesting_substitute_le hu name) hd)
    (Nat.le_trans (t.height_substitute_le name u) hh)

end Formulary
