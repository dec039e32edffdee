/-!
# Identifiers

A name that starts with a letter or an underscore and goes on with letters, digits and underscores
needs no braces in a formula. Letters and digits are those of ASCII.
-/

namespace Formulary.Identifier

/-- The characters that an identifier starts with. -/
def isStart (c : Char) : Bool :=
  c.isAlpha || c == '_'

/-- The characters that an identifier goes on with. -/
def isContinue (c : Char) : Bool :=
  c.isAlphanum || c == '_'

/-- Whether the characters make up an identifier. -/
def isValid : List Char → Bool
  | [] => false
  | c :: cs => isStart c && cs.all isContinue

end Formulary.Identifier
