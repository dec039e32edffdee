import Formulary.Proofs.Cache.Sharing

/-!
# Requests that leave no trace

To ask whether a text is in the cache, or for a text that does not compile, changes nothing that a
later request can show. So such requests can be left out of a session, any number of them in any
places (`Session.run_kept`): the requests that are kept get the answers that they get in the full
session, with the same formula objects and the same state of the cache. Only the steps are counted
anew, and the step named with a formula is always a kept one.

The proof runs both sessions side by side. `Session.Follows` relates their states: the caches are
equal, the origins agree up to the new count, and so do the texts asked for, apart from those that
do not compile. Such a text never gets into a coherent cache. A kept request takes both sessions one
step on (`Follows.step`), one that is left out only the full one (`Follows.skip`).
-/

namespace Formulary

/-! ## Keeping some of the elements of a list -/

section Kept

variable {α β : Type}

/-- Those elements of a list that stand at places to keep. The places are counted from `n`. -/
def kept (keep : Nat → Bool) (n : Nat) : List α → List α
  | [] => []
  | x :: xs => if keep n then x :: kept keep (n + 1) xs else kept keep (n + 1) xs

/-- How many places before the `i`-th are kept, which is the new place of the `i`-th. -/
def newPlace (keep : Nat → Bool) (i : Nat) : Nat :=
  (List.range i).countP keep

variable {keep : Nat → Bool} {n : Nat}

theorem kept_cons_of_keep (h : keep n = true) (x : α) (xs : List α) :
    kept keep n (x :: xs) = x :: kept keep (n + 1) xs := by
  rw [kept, if_pos h]

theorem kept_cons_of_omit (h : keep n = false) (x : α) (xs : List α) :
    kept keep n (x :: xs) = kept keep (n + 1) xs := by
  rw [kept, h, if_neg Bool.false_ne_true]

theorem newPlace_succ_of_keep (h : keep n = true) :
    newPlace keep (n + 1) = newPlace keep n + 1 := by
  rw [newPlace, List.range_succ, List.countP_append, List.countP_singleton, if_pos h]
  rfl

theorem newPlace_succ_of_omit (h : keep n = false) : newPlace keep (n + 1) = newPlace keep n := by
  rw [newPlace, List.range_succ, List.countP_append, List.countP_singleton, h]
  rfl

end Kept

/-- Whether a text is a formula. -/
def Formula.compiles (limits : Limits) (text : String) : Bool :=
  (compile limits text).result.isOk

namespace Cache

open Formula (compiles)

variable {c : Cache} {text : String} {e : CompileError}

theorem compiles_of_contains (h : c.Coherent) (hc : c.contains text = true) :
    compiles c.limits text = true := by
  rw [contains, ← Recent.isSome_find?] at hc
  obtain ⟨shared, hfind⟩ := Option.isSome_iff_exists.mp hc
  rw [compiles, h text shared (Recent.mem_entries_of_find? hfind)]
  rfl

theorem compiles_eq_false (h : c.Coherent) (he : (c.get text).result = .error e) :
    compiles c.limits text = false := by
  rw [compiles, ← h.result_get text, he]
  rfl

end Cache

namespace Session

open Formula (compiles)

/-! ## Counting steps anew -/

/-- The reply with another count of steps. -/
def Reply.renumber (place : Nat → Nat) : Reply → Reply
  | .formula shared first value => .formula shared (place first) value
  | reply => reply

/-- The answer with another count of steps. -/
def Answer.renumber (place : Nat → Nat) (answer : Answer) : Answer :=
  { answer with reply := answer.reply.renumber place }

/-- A question, or a request that failed. -/
def Traceless : Request × Reply → Prop
  | (.contains _, _) => True
  | (.get .., .failure _) => True
  | _ => False

theorem Traceless.delivery?_eq_none {step : Request × Reply} (h : Traceless step) :
    delivery? step = none := by
  obtain ⟨request, reply⟩ := step
  cases request with
  | get text bindings =>
    cases reply with
    | failure e => rfl
    | _ => cases h
  | contains text => rfl
  | clear => cases h

/-! ## Two sessions side by side -/

/-- The session `s'` is as `s`, but for traceless requests that it did not see and for its count of
steps. -/
structure Follows (s s' : Session) (place : Nat → Nat) : Prop where
  cache_eq : s'.cache = s.cache
  asked_eq : s'.asked.filter (compiles s.cache.limits) = s.asked.filter (compiles s.cache.limits)
  origins_eq : s'.origins = s.origins.map fun (id, first) => (id, place first)
  answered_eq : s'.answered = place s.answered

variable {s s' : Session} {place : Nat → Nat} {text : String}

/-- To ask for a text adds it, if it passes a filter and was not asked for before. -/
theorem filter_asked_ask (s : Session) (text : String) (p : String → Bool) :
    (s.ask text).asked.filter p =
      if p text = true ∧ text ∉ s.asked.filter p then s.asked.filter p ++ [text]
      else s.asked.filter p := by
  rw [ask]
  by_cases hp : p text = true <;> by_cases hmem : text ∈ s.asked <;> simp [hp, hmem]

theorem answered_next (s : Session) (request : Request) :
    (s.next request).answered = s.answered + 1 := by
  cases request with
  | get text bindings =>
    rcases hget : (s.cache.get text).result with e | ⟨shared, cache⟩
    · rw [next_eq, reply_of_get_eq_error bindings hget]
      rfl
    · rw [next_eq, reply_of_get_eq_ok bindings hget]
      rfl
  | contains text => rfl
  | clear => rfl

theorem answer_eq (s : Session) (request : Request) :
    (s.step request).2.1 = ⟨(s.reply request).2.1,
      (s.reply request).2.2.asked.filter (s.reply request).2.2.cache.contains,
      (s.reply request).2.2.cache.size, (s.reply request).2.2.cache.isEmpty⟩ :=
  rfl

theorem run_cons (s : Session) (request : Request) (requests : List Request) :
    s.run (request :: requests) =
      ((s.step request).1, (s.step request).2.1) :: (s.next request).run requests :=
  rfl

namespace Follows

theorem origin_eq (h : s.Follows s' place) (shared : Shared) :
    s'.origin shared = place (s.origin shared) := by
  have hlookup (origins : List (Nat × Nat)) (id : Nat) :
      (origins.map fun (id, first) => (id, place first)).lookup id =
        (origins.lookup id).map place := by
    induction origins with
    | nil => rfl
    | cons origin origins ih => grind
  rw [origin, origin, h.origins_eq, h.answered_eq, hlookup, Option.getD_map]

/-- Of the texts asked for, the same ones are in the cache. -/
theorem held_eq (h : s.Follows s' place) (hc : s.cache.Coherent) :
    s'.asked.filter s'.cache.contains = s.asked.filter s.cache.contains := by
  have hfilter (texts : List String) : texts.filter s.cache.contains =
      (texts.filter (compiles s.cache.limits)).filter s.cache.contains := by
    rw [List.filter_filter]
    refine List.filter_congr fun text _ => ?_
    cases hcontains : s.cache.contains text with
    | false => rfl
    | true => rw [Cache.compiles_of_contains hc hcontains, Bool.and_self]
  rw [h.cache_eq, hfilter, h.asked_eq, ← hfilter]

theorem ask (h : s.Follows s' place) (text : String) :
    (s.ask text).Follows (s'.ask text) place := by
  refine ⟨h.cache_eq, ?_, h.origins_eq, h.answered_eq⟩
  show (s'.ask text).asked.filter (compiles s.cache.limits) =
    (s.ask text).asked.filter (compiles s.cache.limits)
  rw [filter_asked_ask, filter_asked_ask, h.asked_eq]

/-- A text that does not compile need not be asked for. -/
theorem ask_left (h : s.Follows s' place) (hf : compiles s.cache.limits text = false) :
    (s.ask text).Follows s' place := by
  refine ⟨h.cache_eq, ?_, h.origins_eq, h.answered_eq⟩
  show s'.asked.filter (compiles s.cache.limits) =
    (s.ask text).asked.filter (compiles s.cache.limits)
  rw [filter_asked_ask, if_neg fun hp => Bool.false_ne_true (hf.symm.trans hp.1), h.asked_eq]

theorem handOut (h : s.Follows s' place) (shared : Shared) {cache : Cache}
    (hlimits : cache.limits = s.cache.limits) :
    (s.handOut shared cache).Follows (s'.handOut shared cache) place := by
  refine ⟨rfl, ?_, ?_, h.answered_eq⟩
  · show s'.asked.filter (compiles cache.limits) = s.asked.filter (compiles cache.limits)
    rw [hlimits, h.asked_eq]
  · show (shared.id, s'.origin shared) :: s'.origins = _
    rw [h.origin_eq, h.origins_eq]
    rfl

/-- Both sessions give the same reply, up to the count of steps, and stay alike. -/
theorem reply (h : s.Follows s' place) (hc : s.cache.Coherent) (request : Request) :
    (s'.reply request).1 = (s.reply request).1 ∧
      (s'.reply request).2.1 = (s.reply request).2.1.renumber place ∧
      (s.reply request).2.2.Follows (s'.reply request).2.2 place := by
  cases request with
  | get text bindings =>
    rcases hget : (s.cache.get text).result with e | ⟨shared, cache⟩
    · have hget' : (s'.cache.get text).result = .error e := by rw [h.cache_eq, hget]
      rw [reply_of_get_eq_error bindings hget, reply_of_get_eq_error bindings hget', h.cache_eq]
      exact ⟨rfl, rfl, h.ask text⟩
    · have hget' : (s'.cache.get text).result = .ok (shared, cache) := by rw [h.cache_eq, hget]
      rw [reply_of_get_eq_ok bindings hget, reply_of_get_eq_ok bindings hget', h.cache_eq,
        h.origin_eq]
      exact ⟨rfl, rfl, (h.ask text).handOut shared (hc.get hget).2⟩
  | contains text =>
    refine ⟨rfl, ?_, h⟩
    show Reply.contains (s'.cache.contains text) = .contains (s.cache.contains text)
    rw [h.cache_eq]
  | clear =>
    refine ⟨rfl, rfl, ?_, h.asked_eq, h.origins_eq, h.answered_eq⟩
    show s'.cache.clear = s.cache.clear
    rw [h.cache_eq]

/-- A kept request takes both sessions on. -/
theorem step (h : s.Follows s' place) (hc : s.cache.Coherent) (request : Request)
    (hplace : place (s.answered + 1) = place s.answered + 1) :
    (s'.step request).1 = (s.step request).1 ∧
      (s'.step request).2.1 = (s.step request).2.1.renumber place ∧
      (s.next request).Follows (s'.next request) place := by
  obtain ⟨hevents, hreply, hstate⟩ := h.reply hc request
  have hcoherent : (s.reply request).2.2.cache.Coherent := (coherent_next hc request).1
  refine ⟨hevents, ?_, hstate.cache_eq, hstate.asked_eq, hstate.origins_eq, ?_⟩
  · rw [answer_eq, answer_eq, hreply, hstate.held_eq hcoherent, hstate.cache_eq]
    rfl
  · rw [answered_next, answered_next, hplace, h.answered_eq]

/-- A traceless request that is left out takes only the full session on. -/
theorem skip (h : s.Follows s' place) (hc : s.cache.Coherent) (request : Request)
    (ht : Traceless (request, (s.reply request).2.1))
    (hplace : place (s.answered + 1) = place s.answered) :
    (s.next request).Follows s' place := by
  have hstate : (s.reply request).2.2.Follows s' place := by
    cases request with
    | get text bindings =>
      rcases hget : (s.cache.get text).result with e | ⟨shared, cache⟩
      · rw [reply_of_get_eq_error bindings hget]
        exact h.ask_left (Cache.compiles_eq_false hc hget)
      · rw [reply_of_get_eq_ok bindings hget] at ht
        cases ht
    | contains text => exact h
    | clear => cases ht
  refine ⟨hstate.cache_eq, hstate.asked_eq, hstate.origins_eq, ?_⟩
  rw [answered_next, hplace, h.answered_eq]

end Follows

/-! ## Whole sessions -/

/-- What is left of a session when traceless requests are left out. -/
theorem Follows.run {keep : Nat → Bool} (h : s.Follows s' (newPlace keep)) (hc : s.cache.Coherent)
    (requests : List Request)
    (ht : ∀ i step, (s.history requests)[i]? = some step → keep (s.answered + i) = false →
      Traceless step) :
    s'.run (kept keep s.answered requests) = (kept keep s.answered (s.run requests)).map
        (fun (events, answer) => (events, answer.renumber (newPlace keep))) ∧
      (s.after requests).Follows (s'.after (kept keep s.answered requests)) (newPlace keep) := by
  induction requests generalizing s s' with
  | nil => exact ⟨rfl, h⟩
  | cons request requests ih =>
    have hcoherent := (coherent_next hc request).1
    have hlater (i : Nat) (step : Request × Reply)
        (hi : ((s.next request).history requests)[i]? = some step)
        (hkeep : keep ((s.next request).answered + i) = false) : Traceless step := by
      rw [answered_next] at hkeep
      exact ht (i + 1) step hi (by rwa [← Nat.add_assoc, Nat.add_right_comm])
    cases hkeep : keep s.answered with
    | true =>
      obtain ⟨hevents, hanswer, hnext⟩ := h.step hc request (newPlace_succ_of_keep hkeep)
      obtain ⟨hrun, hafter⟩ := ih hnext hcoherent hlater
      rw [answered_next] at hrun hafter
      rw [kept_cons_of_keep hkeep]
      refine ⟨?_, hafter⟩
      rw [run_cons, run_cons, kept_cons_of_keep hkeep, List.map_cons, hrun, hevents, hanswer]
    | false =>
      have hnext := h.skip hc request (ht 0 _ rfl hkeep) (newPlace_succ_of_omit hkeep)
      obtain ⟨hrun, hafter⟩ := ih hnext hcoherent hlater
      rw [answered_next] at hrun hafter
      rw [kept_cons_of_omit hkeep]
      refine ⟨?_, hafter⟩
      rw [run_cons, kept_cons_of_omit hkeep, hrun]

/-- Questions and failing requests can be left out of a session with a new cache. The kept requests
are answered as before, with the same records, formulas and states of the cache, but for the count
of steps, in which every formula still has a first step; and the cache ends with the same entries in
the same order. -/
theorem run_kept (limits : Limits) (capacity : Nat) (h : 0 < capacity) (requests : List Request)
    (keep : Nat → Bool)
    (ht : ∀ i step, ((start (.empty limits capacity h)).history requests)[i]? = some step →
      keep i = false → Traceless step) :
    let s := start (.empty limits capacity h)
    s.run (kept keep 0 requests) = (kept keep 0 (s.run requests)).map
        (fun (events, answer) => (events, answer.renumber (newPlace keep))) ∧
      (s.after (kept keep 0 requests)).cache = (s.after requests).cache ∧
      ∀ i d, delivered (s.history requests) i = some d → keep d.first = true := by
  intro s
  have hsame : s.Follows s (newPlace keep) := ⟨rfl, rfl, rfl, rfl⟩
  obtain ⟨hrun, hafter⟩ := hsame.run (Cache.coherent_empty limits capacity h) requests
    fun i step hi => by
      rw [show s.answered + i = i from Nat.zero_add i]
      exact ht i step hi
  refine ⟨hrun, hafter.cache_eq, fun i d hi => ?_⟩
  -- the first step handed the formula out, so it is not traceless
  have hfirst := ((traced_after (traced_start limits capacity h) requests).first i d hi).2
  obtain ⟨step, hstep, hdelivery⟩ := Option.bind_eq_some_iff.mp hfirst
  cases hkeep : keep d.first with
  | true => rfl
  | false =>
    rw [(ht d.first step hstep hkeep).delivery?_eq_none] at hdelivery
    cases hdelivery

/-- Without a failing request and a question, the two requests for `x` are steps `0` and `1` instead
of `1` and `3`. -/
theorem run_kept_two_gets :
    let s := start (.empty {} 2 Nat.two_pos)
    let requests : List Request :=
      [.get "x)" none, .get "x" none, .contains "x", .get "x" none]
    let keep (i : Nat) : Bool := i % 2 = 1
    let x : Formula := ⟨"x", .variable "x", ["x"]⟩
    kept keep 0 requests = [.get "x" none, .get "x" none] ∧
    s.history requests = [(.get "x)" none, .failure (.parse (.unmatchedBracket 1))),
      (.get "x" none, .formula ⟨0, x⟩ 1 none), (.contains "x", .contains true),
      (.get "x" none, .formula ⟨0, x⟩ 1 none)] ∧
    (s.run [.get "x" none, .get "x" none]).map (fun (_, answer) => answer.reply) =
      [.formula ⟨0, x⟩ 0 none, .formula ⟨0, x⟩ 0 none] ∧
    (s.after [.get "x" none, .get "x" none]).cache = (s.after requests).cache := by
  intro s requests keep x
  have hhistory : s.history requests = [(.get "x)" none, .failure (.parse (.unmatchedBracket 1))),
      (.get "x" none, .formula ⟨0, x⟩ 1 none), (.contains "x", .contains true),
      (.get "x" none, .formula ⟨0, x⟩ 1 none)] := by with_unfolding_all rfl
  have htraceless (i : Nat) (step : Request × Reply) (hi : (s.history requests)[i]? = some step)
      (hkeep : keep i = false) : Traceless step := by
    rw [hhistory] at hi
    rcases i with _ | _ | _ | _ | i
    · cases hi
      trivial
    · cases hkeep
    · cases hi
      trivial
    · cases hkeep
    · cases hi
  obtain ⟨hrun, hcache, -⟩ := run_kept {} 2 Nat.two_pos requests keep htraceless
  refine ⟨rfl, hhistory, ?_, hcache⟩
  have hreplies : (s.run (kept keep 0 requests)).map (fun (_, answer) => answer.reply) =
      (kept keep 0 (s.run requests)).map
        (fun (_, answer) => answer.reply.renumber (newPlace keep)) := by
    rw [hrun, List.map_map]
    rfl
  rw [show [Request.get "x" none, .get "x" none] = kept keep 0 requests from rfl, hreplies]
  with_unfolding_all rfl

end Session

end Formulary
