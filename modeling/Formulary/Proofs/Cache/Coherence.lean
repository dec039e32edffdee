import Formulary.Proofs.Cache.Recency

/-!
# What a cache answers

A cache answers as if it compiled every text anew. This rests on an invariant, `Cache.Coherent`:
each entry holds what compiling its text gives. A found formula moves its entry to the front, a new
one is entered after it was compiled, and clearing and dropping entries only take some away, so
every request to a cache keeps the invariant (`Session.coherent_after`).

The answers of a session are its steps from the states that it passes through (`getElem?_run`). In a
coherent state the answer to a request for a formula is the outcome of compiling the text
(`outcome_reply`), and all states of a session with a new cache are coherent.
-/

namespace Formulary

/-! ## Coherent caches -/

namespace Cache

/-- Every entry holds the result of compiling its text. -/
def Coherent (c : Cache) : Prop :=
  ∀ text shared, (text, shared) ∈ c.entries →
    (Formula.compile c.limits text).result = .ok shared.formula

variable {c c' : Cache} {text : String} {shared : Shared}

theorem coherent_clear (c : Cache) : c.clear.Coherent :=
  nofun

theorem coherent_empty (limits : Limits) (capacity : Nat) (h : 0 < capacity) :
    (empty limits capacity h).Coherent :=
  nofun

/-- Whether a text is found or compiled now, the outcome is that of compiling it. -/
theorem Coherent.result_get (h : c.Coherent) (text : String) :
    (c.get text).result.map (·.1.formula) = (Formula.compile c.limits text).result := by
  cases hfind : c.formulas.find? text with
  | some held =>
    rw [get_of_find?_eq_some hfind]
    exact (h text held (Recent.mem_entries_of_find? hfind)).symm
  | none =>
    rw [get_of_find?_eq_none hfind]
    cases (Formula.compile c.limits text).result <;> rfl

theorem Coherent.get (h : c.Coherent) (hget : (c.get text).result = .ok (shared, c')) :
    c'.Coherent ∧ c'.limits = c.limits := by
  obtain ⟨hlimits, hformulas, -⟩ := exists_of_get hget
  have hcompile : (Formula.compile c.limits text).result = .ok shared.formula := by
    rw [← h.result_get text, hget]
    rfl
  refine ⟨fun other held hmem => ?_, hlimits⟩
  rw [entries, hformulas] at hmem
  rw [hlimits]
  rcases Recent.mem_entries_put hmem with ⟨rfl, rfl⟩ | ⟨-, hmem⟩
  · exact hcompile
  · exact h other held hmem

end Cache

/-! ## Coherent sessions -/

namespace Session

/-- What a reply says about the compilation of a text. -/
def Reply.outcome : Reply → Option (Except CompileError Formula)
  | .formula shared _ _ => some (.ok shared.formula)
  | .failure e => some (.error e)
  | _ => none

variable {s : Session}

theorem outcome_reply (h : s.cache.Coherent) (text : String) (bindings : Option Bindings) :
    (s.reply (.get text bindings)).2.1.outcome =
      some (Formula.compile s.cache.limits text).result := by
  rw [← h.result_get text, reply]
  rcases (s.cache.get text).result with e | ⟨shared, cache⟩ <;> rfl

theorem coherent_next (h : s.cache.Coherent) (request : Request) :
    (s.next request).cache.Coherent ∧ (s.next request).cache.limits = s.cache.limits := by
  cases request with
  | get text bindings =>
    rcases hget : (s.cache.get text).result with e | ⟨shared, cache⟩
    · -- a text that does not compile leaves the cache as it is
      simpa [next, step, reply, hget, ask] using h
    · simpa [next, step, reply, hget, handOut] using h.get hget
  | contains text => exact ⟨h, rfl⟩
  | clear => exact ⟨Cache.coherent_clear s.cache, rfl⟩

theorem coherent_after (h : s.cache.Coherent) (requests : List Request) :
    (s.after requests).cache.Coherent ∧ (s.after requests).cache.limits = s.cache.limits := by
  induction requests generalizing s with
  | nil => exact ⟨h, rfl⟩
  | cons request requests ih =>
    obtain ⟨hnext, hlimits⟩ := coherent_next h request
    obtain ⟨hafter, hlimits'⟩ := ih hnext
    exact ⟨hafter, hlimits'.trans hlimits⟩

/-- Every answer of a session is a step from the state that the requests before it led to. -/
theorem getElem?_run (s : Session) (requests : List Request) (i : Nat) :
    (s.run requests)[i]? = requests[i]?.map fun request =>
      let (events, answer, _) := (s.after (requests.take i)).step request
      (events, answer) := by
  induction requests generalizing s i with
  | nil => rfl
  | cons request requests ih =>
    cases i with
    | zero => rfl
    | succ i => exact ih (s.next request) i

/-- In a session with a new cache, every request for a formula is answered by the outcome of
compiling the text, whatever was asked before; and the cache holds distinct texts, each with the
formula that it compiles to. -/
theorem outcome_get_eq_compile (limits : Limits) (capacity : Nat) (h : 0 < capacity)
    (requests : List Request) :
    let s := start (.empty limits capacity h)
    let cache := (s.after requests).cache
    (∀ (i : Nat) text bindings, requests[i]? = some (Request.get text bindings) →
      ∃ answer, (s.run requests)[i]? = some answer ∧
        answer.2.reply.outcome = some (Formula.compile limits text).result) ∧
    cache.keys.Nodup ∧
    ∀ text shared, (text, shared) ∈ cache.entries →
      (Formula.compile limits text).result = .ok shared.formula ∧
        shared.formula.source = text := by
  intro s cache
  have hnew : s.cache.Coherent := Cache.coherent_empty limits capacity h
  refine ⟨fun i text bindings hi => ?_, ?_⟩
  · obtain ⟨hbefore, hlimits⟩ := coherent_after hnew (requests.take i)
    refine ⟨_, by rw [getElem?_run, hi]; rfl, ?_⟩
    have houtcome := outcome_reply hbefore text bindings
    rwa [hlimits] at houtcome
  · obtain ⟨hafter, hlimits⟩ := coherent_after hnew requests
    refine ⟨cache.formulas.nodup, fun text shared hmem => ?_⟩
    have hcompile := hafter text shared hmem
    rw [hlimits] at hcompile
    obtain ⟨-, -, -, hsource, -⟩ := Formula.exists_tokens_of_compile hcompile
    exact ⟨hcompile, hsource⟩

/-- A formula is found again after another text failed, and the failure is that of its text. -/
theorem outcome_get_after_failure :
    let s := start (.empty {} 2 Nat.two_pos)
    let run := s.run (["x*x", "x)", "x*x"].map (.get · none))
    (∃ answer, run[1]? = some answer ∧
      answer.2.reply.outcome = some (.error (.parse (.unmatchedBracket 1)))) ∧
    ∃ answer, run[2]? = some answer ∧ answer.2.reply.outcome = some (.ok
      ⟨"x*x", .binary (.variable "x") .multiply (.variable "x"), ["x", "x"]⟩) := by
  intro s run
  obtain ⟨hanswer, -⟩ := outcome_get_eq_compile {} 2 Nat.two_pos
    (["x*x", "x)", "x*x"].map (.get · none))
  have hfailure : (Formula.compile {} "x)").result = .error (.parse (.unmatchedBracket 1)) := by
    with_unfolding_all rfl
  have hformula : (Formula.compile {} "x*x").result =
      .ok ⟨"x*x", .binary (.variable "x") .multiply (.variable "x"), ["x", "x"]⟩ := by
    with_unfolding_all rfl
  have hsecond := hanswer 1 "x)" none rfl
  have hthird := hanswer 2 "x*x" none rfl
  rw [hfailure] at hsecond
  rw [hformula] at hthird
  exact ⟨hsecond, hthird⟩

end Session

end Formulary
