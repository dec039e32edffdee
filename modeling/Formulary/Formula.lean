import Formulary.Bindings
import Formulary.Expr.Parse
import Formulary.Token.Scan

/-!
# Formulas

A formula is a compiled text: the text itself, its tree, and the variables that it requires, which
are the names among its tokens. `Formula.compile` makes one, and `Formula.eval` computes its value
from bindings of exactly the required variables.
-/

namespace Formulary

/-- Why a text is not a formula. -/
inductive CompileError
  | scan (e : ScanError)
  | parse (e : ParseError)
deriving DecidableEq

/-- The error as it is shown. -/
def CompileError.message : CompileError → String
  | scan e => "lex error: " ++ e.message
  | parse e => "parse error: " ++ e.message

/-- The tree of a text. -/
def Expr.parseText (limits : Limits) (text : String) : Logged CompileError Expr := do
  let tokens ← (Token.tokenize text).mapError .scan
  (Expr.parse limits tokens).mapError .parse

/-- A compiled text. -/
structure Formula where
  source : String
  tree : Expr
  /-- The names of the variables, in order and with repeats. -/
  required : List String
deriving BEq

namespace Formula

/-- The formula of a text. -/
def compile (limits : Limits) (source : String) : Logged CompileError Formula := do
  let tokens ← (Token.tokenize source).mapError .scan
  let required := Token.names tokens
  let tree ← (Expr.parse limits tokens).mapError .parse
  .emit (.compiled source tree.size required)
  return ⟨source, tree, required⟩

/-- The required variables without repeats, in the order in which they first occur. -/
def distinct (f : Formula) : List String :=
  f.required.eraseDups

/-- The formula in brackets. -/
def text (f : Formula) : String :=
  f.tree.text

/-- The value of the formula under bindings of exactly its variables. -/
def eval (f : Formula) (b : Bindings) : Except BindingError Float := do
  b.check f.required none
  return f.tree.eval b.value

end Formula

/-- Why a text has no value. -/
inductive EvaluationError
  | compile (e : CompileError)
  | binding (e : BindingError)
deriving DecidableEq

/-- The error as it is shown. -/
def EvaluationError.message : EvaluationError → String
  | compile e => e.message
  | binding e => "evaluation error: " ++ e.message

/-- The value of a text under bindings of exactly its variables. -/
def evaluate (source : String) (b : Bindings) : Logged EvaluationError Float := do
  let formula ← (Formula.compile {} source).mapError .compile
  .ofExcept ((formula.eval b).mapError .binding)

end Formulary
