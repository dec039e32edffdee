import Formulary.Number.Rounding

/-!
# Decimals

A `Decimal` is a natural coefficient times a power of ten. `Decimal.nearest` is the pattern of the
float nearest to its value. Two texts show a decimal: `Decimal.positional` fills in all zeros, and
`Decimal.scientific` writes an exponent. `Decimal.ofPositional` reads the first one back.
-/

namespace Formulary

/-- The number `coefficient * 10 ^ exponent`. -/
structure Decimal where
  coefficient : Nat
  exponent : Int
deriving DecidableEq, Repr

namespace Decimal

/-- The zeros that follow the coefficient of a whole number. -/
def zeros (d : Decimal) : Nat :=
  d.exponent.toNat

/-- The places after the decimal point. -/
def places (d : Decimal) : Nat :=
  (-d.exponent).toNat

/-- The pattern of the nearest float. -/
def nearest (d : Decimal) : Nat :=
  Number.nearestQuotient (d.coefficient * Nat.pow 10 d.zeros) (Nat.pow 10 d.places)

/-- The nearest float. -/
def toFloat (d : Decimal) : Float :=
  Number.ofPattern d.nearest

/-! ## Digits -/

/-- The decimal digits of the coefficient, without leading zeros. -/
def digits (d : Decimal) : List Char :=
  Nat.toDigits 10 d.coefficient

/-- The place of the decimal point, counted from the left end of the digits. -/
def point (d : Decimal) : Int :=
  d.digits.length + d.exponent

/-- The same value with no trailing zero in the coefficient; zero itself has exponent 0. -/
def trim (d : Decimal) : Decimal :=
  if d.coefficient = 0 then ⟨0, 0⟩
  else if d.coefficient % 10 = 0 then trim ⟨d.coefficient / 10, d.exponent + 1⟩
  else d
termination_by d.coefficient
decreasing_by exact Nat.div_lt_self (by omega) (by decide)

/-! ## Positional text -/

/-- All the digits with every zero filled in, and a point only before a fraction. -/
def positional (d : Decimal) : List Char :=
  if d.places = 0 then
    d.digits ++ List.replicate d.zeros '0'
  else
    let padded := List.replicate (d.places + 1 - d.digits.length) '0' ++ d.digits
    let whole := padded.length - d.places
    padded.take whole ++ '.' :: padded.drop whole

/-- The decimal written as the digits `whole`, a point and the digits `fraction`. -/
def ofPositional (whole fraction : List Char) : Decimal :=
  ⟨Nat.ofDigitChars 10 (whole ++ fraction) 0, -fraction.length⟩

/-! ## Scientific text -/

/-- One digit before the point, the others after it, and the exponent that goes with them. -/
def scientific (d : Decimal) : List Char :=
  let exponent := (toString (d.point - 1)).toList
  match d.digits with
  | first :: more@(_ :: _) => first :: '.' :: more ++ 'e' :: exponent
  | short => short ++ 'e' :: exponent

end Decimal

end Formulary
