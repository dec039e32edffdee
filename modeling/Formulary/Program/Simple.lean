import Formulary.Formula

/-!
# A single formula

The smallest use of the library: compile a formula, list its variables, compute its value.
-/

namespace Formulary.Program

/-- What the example formula is, which variables it has and what it comes to. -/
def simpleFormula : String :=
  match (Formula.compile {} "n1 + n2 * n3").result with
  | .error e => "Error: " ++ e.message ++ "\n"
  | .ok formula =>
    let bindings := Bindings.ofList [("n1", 2), ("n2", 3), ("n3", 4)]
    let value :=
      match formula.eval bindings with
      | .ok x => "Result: " ++ Number.text x
      | .error e => "Error: " ++ e.message
    "Formula: " ++ formula.text ++ "\n"
      ++ "Variables: " ++ Text.bracketed (formula.distinct.map Text.quoted) ++ "\n"
      ++ value ++ "\n"

end Formulary.Program
