import Formulary.Formula

/-!
# Curves

A curve is a formula in which every variable but one is fixed, a function of that one.
`Formula.curve` checks the fixed values once, so that `Curve.value` cannot fail. `Curve.sample`
evaluates a curve at every integer of a range, and `Curve.sampleSplit` does so piece by piece. Both
set room aside for all points first, and fail if there is none for so many.
-/

namespace Formulary

/-- A formula as a function of one variable. -/
structure Curve where
  formula : Formula
  /-- The name of the variable that is not fixed. -/
  argument : String
  fixed : Bindings

/-- Fixes every variable of a formula but `argument`. Without `argument` the curve is constant. -/
def Formula.curve (f : Formula) (argument : String) (fixed : Bindings) :
    Logged BindingError Curve := do
  .ofExcept (fixed.check f.required (some argument))
  .emit (.bound f.source argument)
  return ⟨f, argument, fixed⟩

/-- A point of a curve. -/
structure Sample where
  x : Float
  y : Float

/-- How many points there is room for. Each takes sixteen bytes, of less than `2 ^ 63`. -/
def Sample.capacity : Nat :=
  0x7FFFFFFFFFFFFFFF / 16

/-- Why the points over a range are not evaluated. -/
inductive SamplingError
  /-- There is no room for so many. -/
  | tooMany
deriving DecidableEq, Repr

/-- The error as it is shown. -/
def SamplingError.message : SamplingError → String
  | .tooMany => "capacity overflow"

namespace Curve

/-- The value of the curve at `x`. -/
def value (c : Curve) (x : Float) : Float :=
  c.formula.tree.eval fun name => if name = c.argument then x else c.fixed.value name

/-- The point of the curve over an integer. -/
def point (c : Curve) (i : Int) : Sample :=
  let x := Number.ofInt i
  ⟨x, c.value x⟩

/-- The points over the integers from `start` up to but not including `stop`. -/
def points (c : Curve) (start stop : Int) : List Sample :=
  (List.range (stop - start).toNat).map fun (k : Nat) => c.point (start + k)

/-- Sets room aside for the points over a range. -/
def reserve (start stop : Int) : Except SamplingError Unit :=
  if Sample.capacity < (stop - start).toNat then .error .tooMany else .ok ()

/-- The points over a range, with a log record. -/
def sample (c : Curve) (start stop : Int) : Logged SamplingError (List Sample) := do
  .emit (.sampling c.formula.source c.argument start stop)
  .ofExcept (reserve start stop)
  return c.points start stop

/-! ## Splitting a range -/

/-- How a range is split into pieces. -/
inductive Split
  | whole
  | cut (place : Int) (left right : Split)

/-- Halves a range again and again, `times` deep. -/
def Split.halving (start stop : Int) : Nat → Split
  | 0 => .whole
  | times + 1 =>
    let middle := start + (stop - start) / 2
    .cut middle (halving start middle times) (halving middle stop times)

/-- The points of each piece, put together in order. -/
def splitPoints (c : Curve) (start stop : Int) : Split → List Sample
  | .whole => c.points start stop
  | .cut place left right => c.splitPoints start place left ++ c.splitPoints place stop right

/-- The points over a range, evaluated piece by piece. -/
def sampleSplit (c : Curve) (start stop : Int) (split : Split) :
    Except SamplingError (List Sample) := do
  reserve start stop
  return c.splitPoints start stop split

end Curve

end Formulary
