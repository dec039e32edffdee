import Formulary.Number.Numeral
import Formulary.Token

/-!
# Lexemes

A lexeme is the longest piece of text that stands for one token, or a single space, which stands for
none. `Lexeme.take` cuts the first lexeme off a text that is not empty. Positions count characters
from the start of the whole text.
-/

namespace Formulary

/-- Why a text does not split into lexemes. -/
inductive ScanError
  | unexpectedCharacter (character : Char) (position : Nat)
  | unterminatedBrace (position : Nat)
  | invalidNumber (text : String) (position : Nat)
deriving DecidableEq, Repr

/-- The error as it is shown. -/
def ScanError.message : ScanError → String
  | unexpectedCharacter c position =>
    "unexpected character '" ++ String.singleton c ++ "' at position " ++ toString position
  | unterminatedBrace position => "unterminated '\x7b' starting at position " ++ toString position
  | invalidNumber text position =>
    "invalid number literal '" ++ text ++ "' at position " ++ toString position

/-- A lexeme that has been cut off: its token, and how many characters it has after the first. -/
structure Lexeme where
  token : Option Token
  more : Nat

namespace Lexeme

/-- A number must not be too large for a float. -/
def takeNumber (position : Nat) (text : List Char) : Except ScanError Lexeme :=
  let numeral := (Numeral.take text).1
  if numeral.decimal.nearest < Number.infinity then
    .ok ⟨some (.number numeral.decimal.toFloat), numeral.chars.length - 1⟩
  else .error (.invalidNumber (String.ofList numeral.chars) position)

/-- An identifier goes on as long as it can. -/
def takeIdentifier (c : Char) (cs : List Char) : Lexeme :=
  let rest := cs.takeWhile Identifier.isContinue
  ⟨some (.variable (String.ofList (c :: rest))), rest.length⟩

/-- A name in braces is everything up to the next closing brace, taken as it stands. -/
def takeBraced (position : Nat) (cs : List Char) : Except ScanError Lexeme :=
  let name := cs.takeWhile (· ≠ '\x7d')
  if name.length < cs.length then .ok ⟨some (.variable (String.ofList name)), name.length + 1⟩
  else .error (.unterminatedBrace position)

/-- A single character that is a bracket or an operator. -/
def takeSymbol (position : Nat) (c : Char) : Except ScanError Lexeme :=
  if c = '(' then .ok ⟨some .openBracket, 0⟩
  else if c = ')' then .ok ⟨some .closeBracket, 0⟩
  else match Operator.ofSymbol? c with
    | some op => .ok ⟨some (.operator op), 0⟩
    | none => .error (.unexpectedCharacter c position)

/-- The first lexeme of the text `c :: cs`, which starts at `position`. -/
def take (position : Nat) (c : Char) (cs : List Char) : Except ScanError Lexeme :=
  if c = ' ' then .ok ⟨none, 0⟩
  else if c.isDigit then takeNumber position (c :: cs)
  else if Identifier.isStart c then .ok (takeIdentifier c cs)
  else if c = '\x7b' then takeBraced position cs
  else takeSymbol position c

end Lexeme

end Formulary
