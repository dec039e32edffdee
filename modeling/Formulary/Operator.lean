/-!
# Operators

The five operators of arithmetic, their symbols, how strongly they bind, and what they compute. A
symbol names at most one operator (`ofSymbol?_eq_some_iff`).
-/

namespace Formulary

/-- A binary operator. -/
inductive Operator
  | add
  | subtract
  | multiply
  | divide
  | power
deriving DecidableEq, Repr

namespace Operator

/-- The operator's sign in a formula. -/
def symbol : Operator → Char
  | add => '+'
  | subtract => '-'
  | multiply => '*'
  | divide => '/'
  | power => '^'

/-- The operator with a given sign. -/
def ofSymbol? : Char → Option Operator
  | '+' => some add
  | '-' => some subtract
  | '*' => some multiply
  | '/' => some divide
  | '^' => some power
  | _ => none

/-- How strongly the operator binds. Every operator binds more strongly than `0`. -/
def precedence : Operator → Nat
  | add | subtract => 1
  | multiply | divide => 11
  | power => 21

/-- Floating-point arithmetic: dividing by zero gives an infinity or not-a-number. -/
def apply : Operator → Float → Float → Float
  | add, x, y => x + y
  | subtract, x, y => x - y
  | multiply, x, y => x * y
  | divide, x, y => x / y
  | power, x, y => x.pow y

/-- The operator's sign as a text. -/
def text (op : Operator) : String :=
  String.singleton op.symbol

/-- The operator's name. -/
def detail : Operator → String
  | add => "Add"
  | subtract => "Subtract"
  | multiply => "Multiply"
  | divide => "Divide"
  | power => "Power"

theorem ofSymbol?_eq_some_iff {c : Char} {op : Operator} :
    ofSymbol? c = some op ↔ c = op.symbol := by
  constructor
  · intro h
    unfold ofSymbol? at h
    split at h <;> cases h <;> rfl
  · rintro rfl
    cases op <;> rfl

theorem precedence_pos (op : Operator) : 0 < op.precedence := by
  cases op <;> decide

end Operator

end Formulary
