import Formulary.Program

/-!
# Command line

The first argument names one of the example programs; the others are its arguments.
-/

/-- Runs an example program. -/
def main (args : List String) : IO UInt32 := do
  match args with
  | name :: args =>
    match Formulary.Program.output? name args with
    | some text =>
      IO.print text
      return 0
    | none =>
      IO.eprintln ("unknown program " ++ name)
      return 2
  | [] =>
    IO.eprintln "usage: formulary PROGRAM [ARGUMENT ...]"
    return 2
