import Formulary.Text.Hidden

/-!
# Quoted text

`quoted` writes a text between double quotes. The quote and the backslash are escaped by a
backslash, four control characters have a letter of their own, and any other character that does not
show is written as its code point in braces. `bracketed` writes a list of texts between square
brackets.
-/

namespace Formulary.Text

/-- One character inside quotes. -/
def escape (c : Char) : List Char :=
  match c with
  | '\x00' => ['\\', '0']
  | '\t' => ['\\', 't']
  | '\n' => ['\\', 'n']
  | '\r' => ['\\', 'r']
  | '"' => ['\\', '"']
  | '\\' => ['\\', '\\']
  | c => if isHidden c then '\\' :: 'u' :: '\x7b' :: Nat.toDigits 16 c.toNat ++ ['\x7d'] else [c]

/-- A text between quotes, in a form that shows every character. -/
def quoted (text : String) : String :=
  String.ofList ('"' :: text.toList.flatMap escape ++ ['"'])

/-- Texts between square brackets, with commas. -/
def bracketed (items : List String) : String :=
  "[" ++ ", ".intercalate items ++ "]"

end Formulary.Text
