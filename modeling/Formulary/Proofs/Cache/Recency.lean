import Formulary.Cache.Session
import Formulary.Proofs.Formula.Compile
import Formulary.Proofs.Text.Distinct

/-!
# What a cache holds

A cache is described by its history. `Session.used` lists the texts that were successfully asked for
since the cache was last cleared, the latest first. The cache holds as many distinct texts of this
list as its capacity allows, in the order of the list (`Cache.Keeps`). Every request preserves this
(`keeps_next`): a text that is asked for moves to the front, or enters there, and a failure or a
mere question changes neither the list nor the cache.

`Session.contains_after_iff` reads off what a cache holds after any requests to a new cache.
-/

namespace Formulary

/-! ## The first distinct texts -/

section Distinct

variable {texts : List String} {text : String} {n : Nat}

/-- Without one text, the first `n` of distinct texts are among the first `n + 1`. -/
theorem take_filter_take (h : texts.Nodup) :
    ((texts.take (n + 1)).filter (· ≠ text)).take n = (texts.filter (· ≠ text)).take n := by
  induction texts generalizing n with
  | nil => simp
  | cons other texts ih =>
    obtain ⟨hmem, h⟩ := List.nodup_cons.mp h
    rw [List.take_succ_cons]
    by_cases ho : other = text
    · subst ho
      have htake : other ∉ texts.take n := fun hm => hmem (List.mem_of_mem_take hm)
      rw [List.filter_cons_of_neg (by simp), List.filter_cons_of_neg (by simp),
        filter_ne_of_notMem hmem, filter_ne_of_notMem htake, List.take_take, Nat.min_self]
    · rw [List.filter_cons_of_pos (by simpa using ho), List.filter_cons_of_pos (by simpa using ho)]
      rcases n with _ | n
      · rfl
      · rw [List.take_succ_cons, List.take_succ_cons, ih h]

/-- A text is among the first distinct ones if few distinct ones stand before it. -/
theorem mem_take_eraseDups_iff :
    text ∈ texts.eraseDups.take n ↔
      text ∈ texts ∧ (texts.takeWhile (· ≠ text)).eraseDups.length < n := by
  by_cases hmem : text ∈ texts
  case neg =>
    refine iff_of_false (fun h => hmem ?_) fun h => hmem h.1
    exact List.mem_eraseDups.mp (List.mem_of_mem_take h)
  obtain ⟨before, after, rfl, hn⟩ := List.eq_append_cons_of_mem hmem
  have htake : (before ++ text :: after).takeWhile (· ≠ text) = before := by
    rw [List.takeWhile_append_of_pos, List.takeWhile_cons_of_neg (by simp), List.append_nil]
    intro other ho
    rw [decide_eq_true_eq]
    rintro rfl
    exact hn ho
  have hrest : (text :: after).removeAll before = text :: after.removeAll before := by
    rw [List.removeAll, List.filter_cons_of_pos (by simp [hn])]
    rfl
  have hdups : text ∉ before.eraseDups := fun h => hn (List.mem_eraseDups.mp h)
  rw [htake, List.eraseDups_append, hrest, eraseDups_cons_ne, List.take_append, List.mem_append,
    and_iff_right hmem, or_iff_right fun h => hdups (List.mem_of_mem_take h)]
  rcases Nat.lt_or_ge before.eraseDups.length n with hlt | hge
  · obtain ⟨k, hk⟩ := Nat.exists_eq_add_one_of_ne_zero (Nat.sub_ne_zero_of_lt hlt)
    simp [hk, hlt]
  · simp [Nat.sub_eq_zero_of_le hge, Nat.not_lt.mpr hge]

end Distinct

/-! ## The cache and a list of texts -/

namespace Cache

/-- The cache has room for `capacity` texts, and holds the first distinct ones of a list. -/
structure Keeps (c : Cache) (capacity : Nat) (texts : List String) : Prop where
  capacity_eq : c.capacity = capacity
  keys_eq : c.keys = texts.eraseDups.take capacity

variable {c c' : Cache} {capacity : Nat} {texts : List String} {text : String} {shared : Shared}

/-- A formula that is handed out puts its text first. -/
theorem Keeps.get (h : c.Keeps capacity texts) (hget : (c.get text).result = .ok (shared, c')) :
    c'.Keeps capacity (text :: texts) := by
  obtain ⟨-, hformulas, -⟩ := exists_of_get hget
  have hcapacity : c'.capacity = c.capacity := by
    rw [Cache.capacity, hformulas]
    rfl
  have hkeys : c'.keys = (text :: c.keys.filter (· ≠ text)).take c.capacity := by
    rw [keys, hformulas, Recent.keys_put]
    rfl
  obtain ⟨n, hn⟩ := Nat.exists_eq_add_one_of_ne_zero (Nat.ne_of_gt c.formulas.capacity_pos)
  refine ⟨hcapacity.trans h.capacity_eq, ?_⟩
  rw [hkeys, h.keys_eq, ← h.capacity_eq, show c.capacity = n + 1 from hn, eraseDups_cons_ne,
    List.take_succ_cons, List.take_succ_cons, eraseDups_filter,
    take_filter_take (nodup_eraseDups texts)]

/-- A text that compiles is always answered by a formula. -/
theorem exists_get {f : Formula} (h : (Formula.compile c.limits text).result = .ok f) :
    ∃ shared c', (c.get text).result = .ok (shared, c') ∧ c'.limits = c.limits := by
  cases hfind : c.formulas.find? text with
  | some held =>
    rw [get_of_find?_eq_some hfind]
    exact ⟨held, _, rfl, rfl⟩
  | none =>
    rw [get_of_find?_eq_none hfind, h]
    exact ⟨⟨c.compiled, f⟩, _, rfl, rfl⟩

theorem Keeps.clear (h : c.Keeps capacity texts) : c.clear.Keeps capacity [] :=
  ⟨h.capacity_eq, by simp [Cache.clear, keys]⟩

end Cache

/-! ## The history of a session -/

namespace Session

/-- The session after a request. -/
def next (s : Session) (request : Request) : Session :=
  (s.step request).2.2

/-- The session after requests. -/
def after (s : Session) (requests : List Request) : Session :=
  requests.foldl next s

/-- Requests with the replies that they are given. -/
def history (s : Session) (requests : List Request) : List (Request × Reply) :=
  requests.zip ((s.run requests).map fun answer => answer.2.reply)

/-- What a request and its reply do to the texts that were successfully asked for. -/
def use (texts : List String) : Request × Reply → List String
  | (.get text _, .formula ..) => text :: texts
  | (.clear, _) => []
  | _ => texts

/-- The texts that formulas were handed out for since the cache was last cleared, latest first. -/
def used (history : List (Request × Reply)) : List String :=
  history.foldl use []

variable {s : Session} {capacity : Nat} {texts : List String}

theorem history_cons (s : Session) (request : Request) (requests : List Request) :
    s.history (request :: requests) =
      (request, (s.reply request).2.1) :: (s.next request).history requests :=
  rfl

/-- Every request keeps the cache and the list of used texts in step. -/
theorem keeps_next (h : s.cache.Keeps capacity texts) (request : Request) :
    (s.next request).cache.Keeps capacity (use texts (request, (s.reply request).2.1)) := by
  cases request with
  | get text bindings =>
    rcases hget : (s.cache.get text).result with e | ⟨shared, cache⟩
    · simpa [next, step, reply, hget, use, ask] using h
    · simpa [next, step, reply, hget, use, handOut] using h.get hget
  | contains text => exact h
  | clear => exact h.clear

theorem keeps_after (h : s.cache.Keeps capacity texts) (requests : List Request) :
    (s.after requests).cache.Keeps capacity ((s.history requests).foldl use texts) := by
  induction requests generalizing s texts with
  | nil => exact h
  | cons request requests ih =>
    rw [history_cons, List.foldl_cons]
    exact ih (keeps_next h request)

/-- Asking for texts that compile uses them all. -/
theorem foldl_use_history {asked : List String}
    (h : ∀ text ∈ asked, ∃ f, (Formula.compile s.cache.limits text).result = .ok f) :
    (s.history (asked.map (.get · none))).foldl use texts = asked.reverse ++ texts := by
  induction asked generalizing s texts with
  | nil => rfl
  | cons text asked ih =>
    obtain ⟨f, hf⟩ := h text (List.mem_cons_self ..)
    obtain ⟨shared, cache, hget, hlimits⟩ := Cache.exists_get hf
    have hreply : use texts (.get text none, (s.reply (.get text none)).2.1) = text :: texts := by
      simp [reply, hget, use]
    have hnext : (s.next (.get text none)).cache.limits = s.cache.limits := by
      simpa [next, step, reply, hget, handOut] using hlimits
    rw [List.map_cons, history_cons, List.foldl_cons, hreply, ih, List.reverse_cons]
    · simp
    · exact fun other ho => hnext ▸ h other (List.mem_cons_of_mem _ ho)

/-- After any requests to a new cache, it holds the texts that it handed out formulas for since it
was last cleared, if after the latest time fewer other texts were used than it has room for. -/
theorem contains_after_iff (limits : Limits) (capacity : Nat) (h : 0 < capacity)
    (requests : List Request) :
    let s := start (.empty limits capacity h)
    let cache := (s.after requests).cache
    let texts := used (s.history requests)
    (∀ text, cache.contains text = true ↔
      text ∈ texts ∧ (texts.takeWhile (· ≠ text)).eraseDups.length < capacity) ∧
    cache.size = min capacity texts.eraseDups.length ∧
    (cache.isEmpty = true ↔ texts = []) := by
  intro s cache texts
  have hnew : s.cache.Keeps capacity [] := ⟨rfl, by simp [s, start, Cache.empty, Cache.keys]⟩
  have hkeeps : cache.Keeps capacity texts := keeps_after hnew requests
  have hsize : cache.size = min capacity texts.eraseDups.length := by
    rw [Cache.size, ← Recent.length_keys, ← List.length_take]
    exact congrArg List.length hkeeps.keys_eq
  refine ⟨fun text => ?_, hsize, ?_⟩
  · rw [Cache.contains, Recent.contains_iff_mem, ← mem_take_eraseDups_iff, ← hkeeps.keys_eq]
    rfl
  · rw [Cache.isEmpty, Recent.isEmpty_iff_keys, show cache.formulas.keys = _ from hkeeps.keys_eq]
    rcases texts with _ | ⟨text, texts⟩
    · simp
    · rw [eraseDups_cons_ne, List.take_eq_nil_iff]
      exact iff_of_false (by simp [Nat.ne_of_gt h]) (List.cons_ne_nil _ _)

/-- A text that was used again stays when the next one is dropped. -/
theorem contains_after_four_gets :
    let s := start (.empty {} 2 Nat.two_pos)
    let cache := (s.after (["x", "y", "x", "z"].map (.get · none))).cache
    cache.contains "x" = true ∧ cache.contains "y" = false ∧ cache.size = 2 := by
  intro s cache
  obtain ⟨hcontains, hsize, -⟩ := contains_after_iff {} 2 Nat.two_pos
    (["x", "y", "x", "z"].map (.get · none))
  have hused : used (s.history (["x", "y", "x", "z"].map (.get · none))) =
      ["z", "x", "y", "x"] := by
    refine foldl_use_history fun text ht => ⟨_, Formula.compile_identifier ?_⟩
    revert text
    decide
  rw [hused] at hcontains hsize
  refine ⟨(hcontains "x").mpr (by decide), Bool.eq_false_iff.mpr fun h => ?_, hsize⟩
  exact absurd ((hcontains "y").mp h) (by decide)

end Session

end Formulary
