import Formulary.Expr
import Formulary.Token

/-!
# Log records

Reading a formula, looking it up and using it leave a record of every step, an `Event`. An event has
a level, belongs to one part of the library, and shows as a line of text.
-/

namespace Formulary

/-- How much detail a record gives. -/
inductive Level
  | debug
  | trace
deriving DecidableEq, Repr

/-- The part of the library that a record comes from. -/
inductive Component
  | scanning
  | parsing
  | compiling
  | caching
  | sampling
deriving DecidableEq, Repr

/-- Something that happened. -/
inductive Event
  /-- The scan of a text begins. -/
  | scanning (text : String)
  /-- A text was split into tokens. -/
  | scanned (tokens : List Token)
  /-- The parse of a list of so many tokens begins. -/
  | parsing (count : Nat)
  /-- Two trees are joined by an operator. -/
  | folding (left : Expr) (op : Operator) (right : Expr)
  /-- A token list was parsed. -/
  | parsed (tree : Expr)
  /-- A formula was compiled. -/
  | compiled (source : String) (size : Nat) (names : List String)
  /-- A formula was made a function of one variable. -/
  | bound (source name : String)
  /-- A text was found in the cache. -/
  | cacheHit (text : String)
  /-- A text was not found in the cache. -/
  | cacheMiss (text : String)
  /-- A function is evaluated at the integers of a range. -/
  | sampling (source name : String) (start stop : Int)

namespace Event

/-- The level of a record. -/
def level : Event → Level
  | scanned _ | folding .. | cacheHit _ => .trace
  | _ => .debug

/-- Where a record comes from. -/
def component : Event → Component
  | scanning _ | scanned _ => .scanning
  | parsing _ | folding .. | parsed _ => .parsing
  | compiled .. | bound .. => .compiling
  | cacheHit _ | cacheMiss _ => .caching
  | sampling .. => .sampling

/-- The text of a record. -/
def message : Event → String
  | scanning text => "Tokenizing expression: " ++ text
  | scanned tokens => "Tokens: " ++ Text.bracketed (tokens.map Token.detail)
  | parsing count => "Parsing " ++ toString count ++ " tokens"
  | folding l op r => "Folding " ++ l.text ++ " " ++ op.text ++ " " ++ r.text
  | parsed tree => "Parse result: " ++ tree.text
  | compiled source size names =>
    "Compiled '" ++ source ++ "' into " ++ toString size ++ " nodes, variables "
      ++ Text.bracketed (names.map Text.quoted)
  | bound source name => "Bound '" ++ source ++ "' over " ++ name
  | cacheHit text => "Cache hit for '" ++ text ++ "'"
  | cacheMiss text => "Cache miss for '" ++ text ++ "'"
  | sampling source name start stop =>
    "Sampling '" ++ source ++ "' over " ++ name ++ " in " ++ toString start ++ ".." ++ toString stop

end Event

end Formulary
