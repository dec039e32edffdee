import Formulary.Program.Batch
import Formulary.Program.CurveTable
import Formulary.Program.Simple

/-!
# Programs

The example programs by name.
-/

namespace Formulary.Program

/-- What the program of a given name prints for some arguments. -/
def output? (name : String) (args : List String) : Option String :=
  if name = "simple_formula" then some simpleFormula
  else if name = "batch_evaluation" then some batchEvaluation
  else if name = "sample_curve" then some (sampleCurve args)
  else none

end Formulary.Program
