import Formulary.Cache

/-!
# One formula for many bindings

Evaluates one text under several bindings, and looks it up in a cache each time.
-/

namespace Formulary.Program

/-- The value of a text that a cache is asked for, or what went wrong, and the cache after that. -/
def evaluateCached (cache : Cache) (text : String) (bindings : Bindings) :
    Except String Float × Cache :=
  match (cache.get text).result with
  | .error e => (.error e.message, cache)
  | .ok (shared, cache) => ((shared.formula.eval bindings).mapError BindingError.message, cache)

/-- The values of a text under one list of bindings after the other. -/
def evaluateAll (cache : Cache) (text : String) : List Bindings → List (Except String Float)
  | [] => []
  | bindings :: more =>
    let (outcome, cache) := evaluateCached cache text bindings
    outcome :: evaluateAll cache text more

/-- An outcome as it is shown. -/
def outcomeText : Except String Float → String
  | .ok x => "Ok(" ++ Number.detail x ++ ")"
  | .error message => "Err(" ++ Text.quoted message ++ ")"

/-- The prices of three orders, of which the last one lacks a volume. -/
def orders : List Bindings :=
  [Bindings.ofList [("price", 120), ("volume", 3000)],
    Bindings.ofList [("price", 80), ("volume", 6000)],
    Bindings.ofList [("price", 80)]]

/-- One numbered line for each order. -/
def batchEvaluation : String :=
  let cache := Cache.empty {} 16 (by decide)
  let outcomes := evaluateAll cache "price * volume / 1000" orders
  String.join (outcomes.zipIdx.map fun (outcome, i) =>
    "Result " ++ toString i ++ ": " ++ outcomeText outcome ++ "\n")

end Formulary.Program
