import Formulary.Expr
import Formulary.Token

/-!
# The grammar of expressions

Which token lists are expressions, and which trees they stand for. There is one category for each
strength of operator, and every rule for an operator is left-recursive:

* a sum is a sum, `+` or `-`, and a product; or just a product;
* a product is a product, `*` or `/`, and a power; or just a power;
* a power is a power, `^`, and an atom; or just an atom;
* an atom is a number, a variable, or a sum in brackets.

`Grammar.Derives` is the derivation relation, and `Token.nesting` says how deep the brackets of a
list go. The lemmas say what a derivation keeps: the names of the variables
(`Derives.names_eq`) and the balance of the brackets, which makes the nesting of a list the largest
nesting of its parts (`Derives.nesting_append`).
-/

namespace Formulary

/-- The deepest nesting of a token list: the largest number by which opening brackets outnumber
closing ones in a beginning of the list. -/
def Token.nesting : List Token → Nat
  | [] => 0
  | .openBracket :: ts => nesting ts + 1
  | .closeBracket :: ts => nesting ts - 1
  | .number _ :: ts => nesting ts
  | .variable _ :: ts => nesting ts
  | .operator _ :: ts => nesting ts

namespace Grammar

/-- The kinds of expressions, from the loosest to the tightest. -/
inductive Category
  | sum
  | product
  | power
  | atom
deriving DecidableEq

end Grammar

namespace Operator

open Grammar

/-- The category of the expressions that the operator makes, and of its left side. -/
def category : Operator → Category
  | add | subtract => .sum
  | multiply | divide => .product
  | power => .power

/-- The category of the operator's right side. -/
def rightCategory : Operator → Category
  | add | subtract => .product
  | multiply | divide => .power
  | power => .atom

end Operator

namespace Grammar

/-- `Derives c ts t` says that the tokens `ts` are an expression of category `c`, whose tree is `t`.
Brackets leave no node in the tree. -/
inductive Derives : Category → List Token → Expr → Prop
  | number (x : Float) : Derives .atom [.number x] (.number x)
  | variable (name : String) : Derives .atom [.variable name] (.variable name)
  | brackets {ts : List Token} {t : Expr} (h : Derives .sum ts t) :
      Derives .atom (.openBracket :: (ts ++ [.closeBracket])) t
  | operation {ls rs : List Token} {l r : Expr} (op : Operator) (hl : Derives op.category ls l)
      (hr : Derives op.rightCategory rs r) :
      Derives op.category (ls ++ .operator op :: rs) (.binary l op r)
  | ofProduct {ts : List Token} {t : Expr} (h : Derives .product ts t) : Derives .sum ts t
  | ofPower {ts : List Token} {t : Expr} (h : Derives .power ts t) : Derives .product ts t
  | ofAtom {ts : List Token} {t : Expr} (h : Derives .atom ts t) : Derives .power ts t

variable {c : Category} {ts : List Token} {t : Expr}

namespace Derives

theorem ne_nil (h : Derives c ts t) : ts ≠ [] := by
  induction h with
  | operation op _ _ ihl _ => simp
  | ofProduct _ ih | ofPower _ ih | ofAtom _ ih => exact ih
  | _ => simp

/-- A tree is less high than its tokens are many. -/
theorem height_lt_length (h : Derives c ts t) : t.height < ts.length := by
  induction h with
  | number x => exact Nat.one_pos
  | «variable» name => exact Nat.one_pos
  | brackets _ ih =>
    simp only [List.length_cons, List.length_append]
    omega
  | operation op _ _ ihl ihr =>
    simp only [Expr.height, List.length_append, List.length_cons]
    omega
  | ofProduct _ ih | ofPower _ ih | ofAtom _ ih => exact ih

/-- The variables of the tokens are those of the tree, in the same order. -/
theorem names_eq (h : Derives c ts t) : Token.names ts = t.names := by
  unfold Token.names
  induction h with
  | number x => rfl
  | «variable» name => rfl
  | brackets _ ih => simpa [List.filterMap_cons, Token.name?] using ih
  | operation op _ _ ihl ihr => simp [List.filterMap_cons, Token.name?, Expr.names, ihl, ihr]
  | ofProduct _ ih | ofPower _ ih | ofAtom _ ih => exact ih

/-- The brackets of an expression are balanced, so what follows it begins at the same depth. -/
theorem nesting_append (h : Derives c ts t) (rest : List Token) :
    Token.nesting (ts ++ rest) = max (Token.nesting ts) (Token.nesting rest) := by
  induction h generalizing rest with
  | number x => simp [Token.nesting]
  | «variable» name => simp [Token.nesting]
  | brackets _ ih =>
    simp only [List.cons_append, List.append_assoc, Token.nesting, ih, List.nil_append]
    omega
  | operation op _ _ ihl ihr =>
    simp only [List.append_assoc, List.cons_append, ihl, Token.nesting, ihr]
    omega
  | ofProduct _ ih | ofPower _ ih | ofAtom _ ih => exact ih rest

theorem nesting_brackets (h : Derives .sum ts t) :
    Token.nesting (.openBracket :: (ts ++ [.closeBracket])) = Token.nesting ts + 1 := by
  simp [Token.nesting, h.nesting_append]

theorem nesting_operation (h : Derives c ts t) (op : Operator) (rs : List Token) :
    Token.nesting (ts ++ .operator op :: rs) = max (Token.nesting ts) (Token.nesting rs) := by
  rw [h.nesting_append, Token.nesting]

end Derives

end Grammar

end Formulary
