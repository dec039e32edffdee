import Formulary.Cache

/-!
# Sessions with a cache

A session is a list of requests to one cache. `Session.run` answers each request in turn, together
with what can be seen of the cache after it.
-/

namespace Formulary

namespace Session

/-- What is asked of a cache. -/
inductive Request
  /-- The formula of a text, and its value if bindings are given. -/
  | get (text : String) (bindings : Option Bindings)
  /-- Whether a text is in the cache. -/
  | contains (text : String)
  | clear

/-- What a request is answered. -/
inductive Reply
  /-- A formula, the index of the request that first answered it, and its value. -/
  | formula (shared : Shared) (first : Nat) (value : Option (Except BindingError Float))
  | failure (e : CompileError)
  | contains (found : Bool)
  | cleared

/-- An answer and the state of the cache after it. -/
structure Answer where
  reply : Reply
  /-- The texts asked for so far that are in the cache, in the order of first asking. -/
  held : List String
  size : Nat
  isEmpty : Bool

end Session

/-- A cache in use. -/
structure Session where
  cache : Cache
  /-- The texts that formulas were asked for, in the order of first asking. -/
  asked : List String
  /-- For each formula handed out, the request that it was compiled for; the latest first. -/
  origins : List (Nat × Nat)
  /-- How many requests were answered. -/
  answered : Nat

namespace Session

/-- A session with a new cache. -/
def start (cache : Cache) : Session :=
  ⟨cache, [], [], 0⟩

/-- The request for which a formula was compiled; the present one if it is new. -/
def origin (s : Session) (shared : Shared) : Nat :=
  (s.origins.lookup shared.id).getD s.answered

/-- Notes that a text was asked for. -/
def ask (s : Session) (text : String) : Session :=
  { s with asked := if s.asked.contains text then s.asked else s.asked ++ [text] }

/-- Notes a formula that was handed out, with the cache after that. -/
def handOut (s : Session) (shared : Shared) (cache : Cache) : Session :=
  { s with cache, origins := (shared.id, s.origin shared) :: s.origins }

/-- Answers a request, except for the state of the cache. -/
def reply (s : Session) : Request → List Event × Reply × Session
  | .get text bindings =>
    let asked := s.ask text
    let outcome := s.cache.get text
    match outcome.result with
    | .ok (shared, cache) =>
      (outcome.events, .formula shared (s.origin shared) (bindings.map shared.formula.eval),
        asked.handOut shared cache)
    | .error e => (outcome.events, .failure e, asked)
  | .contains text => ([], .contains (s.cache.contains text), s)
  | .clear => ([], .cleared, { s with cache := s.cache.clear })

/-- Answers a request. -/
def step (s : Session) (request : Request) : List Event × Answer × Session :=
  let (events, reply, s) := s.reply request
  let answer := ⟨reply, s.asked.filter s.cache.contains, s.cache.size, s.cache.isEmpty⟩
  (events, answer, { s with answered := s.answered + 1 })

/-- Answers requests in turn, with the records of each. -/
def run (s : Session) : List Request → List (List Event × Answer)
  | [] => []
  | request :: requests =>
    let (events, answer, s) := s.step request
    (events, answer) :: s.run requests

end Session

end Formulary
