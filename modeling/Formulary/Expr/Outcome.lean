import Formulary.Token

/-!
# Limits and errors of parsing

The limits that a parse keeps, and the ways in which it fails.
-/

namespace Formulary

/-- The largest trees that the parser builds. -/
structure Limits where
  /-- How deeply brackets may nest. -/
  maxDepth : Nat := 256
  /-- How many operations may be stacked in one tree. -/
  maxHeight : Nat := 1024
deriving DecidableEq, Repr

/-- What may stand where the parser met a token that may not. -/
inductive Expectation
  | value
  | operatorOrClose
  | closeBracket
  | endOfExpression
deriving DecidableEq, Repr

/-- The expectation as it is shown. -/
def Expectation.text : Expectation → String
  | value => "a number, a variable or '('"
  | operatorOrClose => "an operator or ')'"
  | closeBracket => "')'"
  | endOfExpression => "end of expression"

/-- Why a token list is not an expression. Positions count tokens. -/
inductive ParseError
  | emptyExpression
  | unexpectedEnd
  | unexpectedToken (expected : Expectation) (found : Token) (position : Nat)
  | unclosedBracket (position : Nat)
  | unmatchedBracket (position : Nat)
  | nestingTooDeep (limit : Nat)
  | treeTooTall (limit : Nat)
deriving DecidableEq

/-- The error as it is shown. -/
def ParseError.message : ParseError → String
  | emptyExpression => "empty expression"
  | unexpectedEnd => "unexpected end of expression, expected " ++ Expectation.value.text
  | unexpectedToken expected found position =>
    "expected " ++ expected.text ++ ", found " ++ found.text ++ " at token " ++ toString position
  | unclosedBracket position => "'(' at token " ++ toString position ++ " is never closed"
  | unmatchedBracket position => "unmatched ')' at token " ++ toString position
  | nestingTooDeep limit => "brackets nested deeper than " ++ toString limit ++ " levels"
  | treeTooTall limit => "more than " ++ toString limit ++ " operations stacked in one expression"

end Formulary
