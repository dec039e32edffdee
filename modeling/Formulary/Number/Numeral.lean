import Formulary.Number.Decimal

/-!
# Numerals

A numeral is a run of digits in which a point may stand (`Numeral`). `Numeral.take` cuts the longest
one off a text. `Number.read` reads a whole text as a float: an optional sign, then either a numeral
with an optional exponent, or one of the words for infinity and not-a-number in any letter case. The
float is the one nearest to the number written; a number too large for any float becomes infinite,
and one too small becomes zero.
-/

namespace Formulary

/-- The digits before the point, and those after it if there is a point. -/
structure Numeral where
  whole : List Char
  fraction : Option (List Char)

namespace Numeral

/-- The numeral as it is written. -/
def chars (n : Numeral) : List Char :=
  match n.fraction with
  | none => n.whole
  | some ds => n.whole ++ '.' :: ds

/-- The value of a numeral. -/
def decimal (n : Numeral) : Decimal :=
  Decimal.ofPositional n.whole (n.fraction.getD [])

/-- The longest numeral that a text begins with, and the rest. A second point ends it. -/
def take (text : List Char) : Numeral × List Char :=
  let whole := text.takeWhile Char.isDigit
  match text.dropWhile Char.isDigit with
  | '.' :: rest => (⟨whole, some (rest.takeWhile Char.isDigit)⟩, rest.dropWhile Char.isDigit)
  | rest => (⟨whole, none⟩, rest)

end Numeral

namespace Number

/-- Why a text is not a number. -/
inductive ReadError
  | empty
  | malformed
deriving DecidableEq, Repr

/-- The error as it is shown. -/
def ReadError.message : ReadError → String
  | .empty => "cannot parse float from empty string"
  | .malformed => "invalid float literal"

/-- A leading sign, read as whether the number is negative, and the text after it. -/
def splitSign : List Char → Bool × List Char
  | '-' :: rest => (true, rest)
  | '+' :: rest => (false, rest)
  | text => (false, text)

/-- The words for the values that are not finite. -/
def readWord (text : List Char) : Option Float :=
  let word := String.ofList (text.map Char.toLower)
  if word = "inf" ∨ word = "infinity" then some (ofPattern infinity)
  else if word = "nan" then some nan
  else none

/-- A power of ten that ends a number: nothing, or `e` and digits with an optional sign. -/
def readExponent : List Char → Option Int
  | [] => some 0
  | e :: rest =>
    let (negative, ds) := splitSign rest
    if e.toLower = 'e' ∧ ds ≠ [] ∧ ds.all Char.isDigit then
      let n : Int := Nat.ofDigitChars 10 ds 0
      some (if negative then -n else n)
    else none

/-- `d` times ten to the power `e`, in an exponent of bounded size. Beyond the bounds the nearest
float is infinite or zero already. -/
def scale (d : Decimal) (e : Int) : Decimal :=
  ⟨d.coefficient, max (min (d.exponent + e) 400) (-(400 + d.digits.length))⟩

/-- A numeral with at least one digit, and an optional exponent. -/
def readDigits (text : List Char) : Option Float := do
  let (numeral, rest) := Numeral.take text
  guard (numeral.chars.any Char.isDigit)
  let e ← readExponent rest
  return (scale numeral.decimal e).toFloat

/-- The float that a text stands for. -/
def read (text : String) : Except ReadError Float :=
  if text.isEmpty then .error .empty
  else
    let (negative, body) := splitSign text.toList
    match readWord body <|> readDigits body with
    | some x => .ok (if negative then -x else x)
    | none => .error .malformed

end Number

end Formulary
