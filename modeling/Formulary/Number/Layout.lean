import Formulary.Number.Shortest

/-!
# Writing a number

Every text of a float shows its shortest decimal. Two layouts are in use: `Layout.plain` never
writes an exponent, and `Layout.detailed` keeps a point in whole numbers and turns to an exponent
for the very large and the very small ones. `Number.text` and `Number.detail` are the two texts. The
plain text of a finite float with a clear sign bit is the bare decimal (`text_eq_positional`).
-/

namespace Formulary.Number

/-- The choices in writing a float. -/
structure Layout where
  /-- Whether a whole number ends in `.0`. -/
  keepsPoint : Bool
  /-- The places of the decimal point, first and last, between which no exponent is written;
  everywhere when there is none. -/
  positional : Option (Int × Int)

namespace Layout

/-- Digits only, with zeros filled in and a point before a fraction. -/
def plain : Layout :=
  ⟨false, none⟩

/-- Always a point or an exponent; the exponent from `1e16` up and below `1e-4`. -/
def detailed : Layout :=
  ⟨true, some (-3, 16)⟩

/-- Whether a decimal is written without an exponent. -/
def isPositional (l : Layout) (d : Decimal) : Bool :=
  match l.positional with
  | none => true
  | some (first, last) => first ≤ d.point && d.point ≤ last

/-- The text of a decimal. -/
def decimal (l : Layout) (d : Decimal) : List Char :=
  if !l.isPositional d then d.scientific
  else if l.keepsPoint && d.places == 0 then d.positional ++ ['.', '0']
  else d.positional

/-- The text of a float. The not-a-number has no sign; a negative zero has one. -/
def float (l : Layout) (x : Float) : String :=
  if infinity < magnitude x then "NaN"
  else
    let sign := if isNegative x then "-" else ""
    let size :=
      if magnitude x = infinity then "inf" else String.ofList (l.decimal (shortest (magnitude x)))
    sign ++ size

end Layout

/-- The plain text of a float. -/
def text (x : Float) : String :=
  Layout.plain.float x

/-- The detailed text of a float. -/
def detail (x : Float) : String :=
  Layout.detailed.float x

theorem text_eq_positional {x : Float} (hs : isNegative x = false) (hf : magnitude x < infinity) :
    text x = String.ofList (shortest (magnitude x)).positional := by
  have h1 : ¬ infinity < magnitude x := by omega
  have h2 : ¬ magnitude x = infinity := by omega
  simp [text, Layout.plain, Layout.float, Layout.decimal, Layout.isPositional, hs, h1, h2]

end Formulary.Number
