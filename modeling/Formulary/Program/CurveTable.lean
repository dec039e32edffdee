import Formulary.Curve
import Formulary.Number.Numeral

/-!
# A table of a curve

Prints the values of a formula of `x` at the integers from -10 to 10. The other variables are fixed
by arguments of the form `NAME=VALUE`. Whatever is wrong with the arguments, the first fault is
reported.
-/

namespace Formulary.Program

/-- What is printed when there is no argument. -/
def usage : List String :=
  ["Print the values of a formula of `x` for x in -10..=10.",
    "",
    "Usage: sample_curve EXPR [NAME=VALUE ...]",
    "",
    "Example: sample_curve 'k * x ^ 2' k=0.5"]

/-- A fixed variable. The name ends at the first equals sign. -/
def readFixed (arg : String) : Except String (String × Float) :=
  let name := arg.toList.takeWhile (· ≠ '=')
  match arg.toList.dropWhile (· ≠ '=') with
  | [] => .error ("Expected NAME=VALUE, got `" ++ arg ++ "`")
  | _ :: value =>
    match Number.read (String.ofList value) with
    | .ok x => .ok (String.ofList name, x)
    | .error e => .error ("Invalid value for `" ++ String.ofList name ++ "`: " ++ e.message)

/-- A text with spaces before it, at least `width` characters wide. -/
def padLeft (width : Nat) (text : String) : String :=
  String.ofList (List.replicate (width - text.length) ' ') ++ text

/-- One line of the table. -/
def row (point : Sample) : String :=
  padLeft 4 (Number.text point.x) ++ " " ++ Number.text point.y

/-- The lines of the table. -/
def table (source : String) (args : List String) : Except String (List String) := do
  let fixed ← args.mapM readFixed
  let formula ← (Formula.compile {} source).result.mapError fun e =>
    "Error when compiling `" ++ source ++ "`: " ++ e.message
  let curve ← (formula.curve "x" (Bindings.ofList fixed)).result.mapError fun e =>
    "Error when trying to bind `x` in " ++ source ++ ": " ++ e.message
  return (curve.points (-10) 11).map row

/-- What is printed for a list of arguments. -/
def sampleCurve (args : List String) : String :=
  let lines :=
    match args with
    | [] => usage
    | source :: args =>
      match table source args with
      | .ok lines => lines
      | .error message => [message]
  String.join (lines.map (· ++ "\n"))

end Formulary.Program
