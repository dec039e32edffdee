import Formulary.Identifier
import Formulary.Number.Layout
import Formulary.Operator
import Formulary.Text.Quoted

/-!
# Tokens

The pieces that a formula is read as, and two texts of a token: `Token.text` is used in messages and
`Token.detail` in logs. `Token.names` lists the variables of a token list.
-/

namespace Formulary

/-- A piece of a formula. -/
inductive Token
  | number (value : Float)
  | variable (name : String)
  | operator (op : Operator)
  | openBracket
  | closeBracket
deriving DecidableEq

namespace Token

/-- The token as messages name it. -/
def text : Token → String
  | number x => "number " ++ Number.text x
  | .variable name => "variable '" ++ name ++ "'"
  | operator op => "operator '" ++ op.text ++ "'"
  | openBracket => "'('"
  | closeBracket => "')'"

/-- The token as logs show it. -/
def detail : Token → String
  | number x => "Number(" ++ Number.detail x ++ ")"
  | .variable name => "Variable(" ++ Text.quoted name ++ ")"
  | operator op => "Operator(" ++ op.detail ++ ")"
  | openBracket => "Bracket(Open)"
  | closeBracket => "Bracket(Close)"

/-- The variable that the token names, if it names one. -/
def name? : Token → Option String
  | .variable name => some name
  | _ => none

/-- The variables of a token list, in order and with repeats. -/
def names (tokens : List Token) : List String :=
  tokens.filterMap name?

end Token

end Formulary
