import Formulary.Proofs.Cache.Coherence

/-!
# Which formulas a cache shares

A cache that is asked for a text again hands out the formula that it handed out the time before,
as long as the text stays in the cache; otherwise it compiles a new one. `Session.delivered` reads
off the history of a session what each step handed out, and `Session.Traced` says how a session
knows of it:

* formulas are numbered as they are compiled, so the number of a new one is larger than all that
  were handed out before;
* the number determines the formula, its text, and the step that handed it out first, which is what
  the session notes as its origin;
* the formula in the cache for a text is the one that was handed out for it last.

The invariant is kept by every request (`traced_next`): a formula found in the cache is a known one,
and only a text that is not found gets a new number. `Session.shared_iff_contains` says what follows
for the formulas of a whole session.
-/

namespace Formulary

/-! ## Deliveries -/

namespace Session

/-- A formula that was handed out for a text, with the step that is said to be its first. -/
structure Delivery where
  text : String
  shared : Shared
  first : Nat

/-- What a request and its reply hand out. -/
def delivery? : Request × Reply → Option Delivery
  | (.get text _, .formula shared first _) => some ⟨text, shared, first⟩
  | _ => none

/-- What was handed out at a step. -/
def delivered (past : List (Request × Reply)) (i : Nat) : Option Delivery :=
  past[i]?.bind delivery?

section Delivered

variable {past rest : List (Request × Reply)} {step : Request × Reply} {d : Delivery} {i : Nat}

theorem lt_length_of_delivered (h : delivered past i = some d) : i < past.length := by
  rcases Nat.lt_or_ge i past.length with hlt | hge
  · exact hlt
  · rw [delivered, List.getElem?_eq_none hge] at h
    cases h

theorem delivered_append_of_lt (h : i < past.length) :
    delivered (past ++ rest) i = delivered past i := by
  rw [delivered, delivered, List.getElem?_append_left h]

theorem delivered_append_length :
    delivered (past ++ step :: rest) past.length = delivery? step := by
  rw [delivered, List.getElem?_append_right (Nat.le_refl _), Nat.sub_self]
  rfl

/-- A delivery is an earlier one or that of the last step. -/
theorem delivered_append_eq_some_iff : delivered (past ++ [step]) i = some d ↔
    delivered past i = some d ∨ i = past.length ∧ delivery? step = some d := by
  rcases Nat.lt_trichotomy i past.length with hlt | rfl | hgt
  · rw [delivered_append_of_lt hlt]
    exact (or_iff_left fun h => Nat.ne_of_lt hlt h.1).symm
  · rw [delivered_append_length, or_iff_right fun h => Nat.lt_irrefl _ (lt_length_of_delivered h)]
    exact (and_iff_right rfl).symm
  · refine iff_of_false (fun h => ?_) fun h => ?_
    · have hlt := lt_length_of_delivered h
      rw [List.length_append, List.length_singleton] at hlt
      omega
    · rcases h with h | ⟨rfl, -⟩
      · exact Nat.lt_asymm hgt (lt_length_of_delivered h)
      · exact Nat.lt_irrefl _ hgt

end Delivered

/-! ## What a session knows of its past -/

/-- The session has answered the steps of `past`, and knows what they handed out. -/
structure Traced (s : Session) (past : List (Request × Reply)) : Prop where
  answered_eq : s.answered = past.length
  id_lt : ∀ i d, delivered past i = some d → d.shared.id < s.cache.compiled
  lookup_eq : ∀ i d, delivered past i = some d → s.origins.lookup d.shared.id = some d.first
  lookup_eq_none : ∀ id, s.cache.compiled ≤ id → s.origins.lookup id = none
  /-- The number of a formula determines its delivery. -/
  unique : ∀ i j d d', delivered past i = some d → delivered past j = some d' →
    d.shared.id = d'.shared.id → d = d'
  /-- The first step of a formula handed it out, and not after any other step did. -/
  first : ∀ i d, delivered past i = some d → d.first ≤ i ∧ delivered past d.first = some d
  /-- The formula in the cache for a text was handed out for it, and none was after that. -/
  latest : ∀ text shared, (text, shared) ∈ s.cache.entries → ∃ i first,
    delivered past i = some ⟨text, shared, first⟩ ∧
      ∀ k d, i < k → delivered past k = some d → d.text ≠ text

variable {s : Session} {past : List (Request × Reply)} {step : Request × Reply} {d : Delivery}
  {cache : Cache}

theorem traced_start (limits : Limits) (capacity : Nat) (h : 0 < capacity) :
    (start (.empty limits capacity h)).Traced [] :=
  ⟨rfl, nofun, nofun, fun _ _ => rfl, nofun, nofun, nofun⟩

namespace Traced

/-- The origin of a formula that was handed out is its first step. -/
theorem origin_eq {i : Nat} (h : s.Traced past) (hi : delivered past i = some d) :
    s.origin d.shared = d.first := by
  rw [origin, h.lookup_eq i d hi, Option.getD_some]

/-- The origin of a formula that is compiled now is the present step. -/
theorem origin_new (h : s.Traced past) {shared : Shared} (hid : shared.id = s.cache.compiled) :
    s.origin shared = past.length := by
  rw [origin, h.lookup_eq_none _ (Nat.le_of_eq hid.symm), Option.getD_none, h.answered_eq]

/-- A step that hands nothing out and enters nothing into the cache leaves all as it was. -/
theorem idle {s' : Session} (h : s.Traced past) (hstep : delivery? step = none)
    (hanswered : s'.answered = s.answered + 1) (horigins : s'.origins = s.origins)
    (hcompiled : s'.cache.compiled = s.cache.compiled)
    (hentries : ∀ entry ∈ s'.cache.entries, entry ∈ s.cache.entries) :
    s'.Traced (past ++ [step]) := by
  have hsame : delivered (past ++ [step]) = delivered past := by
    funext i
    refine Option.ext fun d => ?_
    rw [delivered_append_eq_some_iff, hstep]
    exact or_iff_left fun h => nomatch h.2
  constructor
  · rw [hanswered, h.answered_eq, List.length_append, List.length_singleton]
  · rw [hsame, hcompiled]
    exact h.id_lt
  · rw [hsame, horigins]
    exact h.lookup_eq
  · rw [hcompiled, horigins]
    exact h.lookup_eq_none
  · rw [hsame]
    exact h.unique
  · rw [hsame]
    exact h.first
  · rw [hsame]
    exact fun text shared hmem => h.latest text shared (hentries _ hmem)

/-- A step that hands out a formula puts it first. Either it is the one known by its number, or
there is none of this number. -/
theorem deliver {s' : Session} (h : s.Traced past) (hstep : delivery? step = some d)
    (hanswered : s'.answered = s.answered + 1)
    (horigins : s'.origins = (d.shared.id, d.first) :: s.origins)
    (hcompiled : s.cache.compiled ≤ s'.cache.compiled) (hid : d.shared.id < s'.cache.compiled)
    (hknown : ∀ i d', delivered past i = some d' → d'.shared.id = d.shared.id → d' = d)
    (hfirst : d.first = past.length ∨ d.first ≤ past.length ∧ delivered past d.first = some d)
    (hentries : ∀ text shared, (text, shared) ∈ s'.cache.entries →
      text = d.text ∧ shared = d.shared ∨ text ≠ d.text ∧ (text, shared) ∈ s.cache.entries) :
    s'.Traced (past ++ [step]) := by
  have hlast : delivered (past ++ [step]) past.length = some d :=
    delivered_append_length.trans hstep
  have hold {i : Nat} {d' : Delivery} (hi : delivered (past ++ [step]) i = some d') :
      delivered past i = some d' ∨ i = past.length ∧ d' = d := by
    rcases delivered_append_eq_some_iff.mp hi with hi | ⟨rfl, hd⟩
    · exact .inl hi
    · rw [hstep, Option.some.injEq] at hd
      exact .inr ⟨rfl, hd.symm⟩
  constructor
  · rw [hanswered, h.answered_eq, List.length_append, List.length_singleton]
  · intro i d' hi
    rcases hold hi with hi | ⟨-, rfl⟩
    · exact Nat.lt_of_lt_of_le (h.id_lt i d' hi) hcompiled
    · exact hid
  · intro i d' hi
    rw [horigins, List.lookup_cons]
    rcases hold hi with hi | ⟨-, rfl⟩
    · by_cases heq : d'.shared.id = d.shared.id
      · rw [hknown i d' hi heq, beq_self_eq_true]
      · rw [beq_false_of_ne heq]
        exact h.lookup_eq i d' hi
    · rw [beq_self_eq_true]
  · intro id hle
    rw [horigins, List.lookup_cons, beq_false_of_ne (Nat.ne_of_gt (Nat.lt_of_lt_of_le hid hle))]
    exact h.lookup_eq_none id (Nat.le_trans hcompiled hle)
  · intro i j d₁ d₂ hi hj heq
    rcases hold hi with hi | ⟨-, rfl⟩ <;> rcases hold hj with hj | ⟨-, rfl⟩
    · exact h.unique i j d₁ d₂ hi hj heq
    · exact hknown i d₁ hi heq
    · exact (hknown j d₂ hj heq.symm).symm
    · rfl
  · intro i d' hi
    rcases hold hi with hi | ⟨rfl, rfl⟩
    · obtain ⟨hle, hd⟩ := h.first i d' hi
      exact ⟨hle, delivered_append_eq_some_iff.mpr (.inl hd)⟩
    · rcases hfirst with heq | ⟨hle, hd⟩
      · exact ⟨Nat.le_of_eq heq, by rw [heq, hlast]⟩
      · exact ⟨hle, delivered_append_eq_some_iff.mpr (.inl hd)⟩
  · intro text shared hmem
    rcases hentries text shared hmem with ⟨rfl, rfl⟩ | ⟨hne, hmem⟩
    · refine ⟨past.length, d.first, hlast, fun k d' hk hd' => ?_⟩
      have hlt := lt_length_of_delivered hd'
      rw [List.length_append, List.length_singleton] at hlt
      omega
    · obtain ⟨i, first, hi, hlater⟩ := h.latest text shared hmem
      refine ⟨i, first, delivered_append_eq_some_iff.mpr (.inl hi), fun k d' hk hd' => ?_⟩
      rcases hold hd' with hd' | ⟨-, rfl⟩
      · exact hlater k d' hk hd'
      · exact hne.symm

end Traced

/-! ## Every request is traced -/

theorem reply_of_get_eq_ok {text : String} {shared : Shared} (bindings : Option Bindings)
    (h : (s.cache.get text).result = .ok (shared, cache)) :
    s.reply (.get text bindings) = ((s.cache.get text).events,
      .formula shared (s.origin shared) (bindings.map shared.formula.eval),
      (s.ask text).handOut shared cache) := by
  simp only [reply, h]

theorem reply_of_get_eq_error {text : String} {e : CompileError} (bindings : Option Bindings)
    (h : (s.cache.get text).result = .error e) :
    s.reply (.get text bindings) = ((s.cache.get text).events, .failure e, s.ask text) := by
  simp only [reply, h]

theorem next_eq (s : Session) (request : Request) :
    s.next request = { (s.reply request).2.2 with
      answered := (s.reply request).2.2.answered + 1 } :=
  rfl

theorem traced_next (h : s.Traced past) (request : Request) :
    (s.next request).Traced (past ++ [(request, (s.reply request).2.1)]) := by
  cases request with
  | get text bindings =>
    rcases hget : (s.cache.get text).result with e | ⟨shared, cache⟩
    · rw [next_eq, reply_of_get_eq_error bindings hget]
      exact h.idle rfl rfl rfl rfl fun entry hmem => hmem
    obtain ⟨-, hformulas, hways⟩ := Cache.exists_of_get hget
    have hentries (other : String) (held : Shared) (hmem : (other, held) ∈ cache.entries) :
        other = text ∧ held = shared ∨ other ≠ text ∧ (other, held) ∈ s.cache.entries := by
      rw [Cache.entries, hformulas] at hmem
      exact Recent.mem_entries_put hmem
    rw [next_eq, reply_of_get_eq_ok bindings hget]
    rcases hways with ⟨hfind, hcompiled⟩ | ⟨-, hid, hcompiled, -⟩
    · -- the formula that was found is the one last handed out for the text
      obtain ⟨i, first, hi, -⟩ := h.latest text shared (Recent.mem_entries_of_find? hfind)
      have horigin : s.origin shared = first := h.origin_eq hi
      obtain ⟨hle, hfirst⟩ := h.first i _ hi
      refine h.deliver (d := ⟨text, shared, first⟩) (by rw [horigin]; rfl) rfl
        (by rw [← horigin]; rfl) (Nat.le_of_eq hcompiled.symm) ?_
        (fun j d hj heq => h.unique j i d _ hj hi heq) (.inr ⟨?_, hfirst⟩) hentries
      · exact Nat.lt_of_lt_of_eq (h.id_lt i _ hi) hcompiled.symm
      · exact Nat.le_trans hle (Nat.le_of_lt (lt_length_of_delivered hi))
    · have horigin : s.origin shared = past.length := h.origin_new hid
      refine h.deliver (d := ⟨text, shared, past.length⟩) (by rw [horigin]; rfl) rfl
        (by rw [← horigin]; rfl) ?_ ?_ (fun i d hi heq => ?_) (.inl rfl) hentries
      · exact Nat.le_trans (Nat.le_succ _) (Nat.le_of_eq hcompiled.symm)
      · exact Nat.lt_of_lt_of_eq (Nat.lt_succ_of_le (Nat.le_of_eq hid)) hcompiled.symm
      · exact absurd (heq.trans hid) (Nat.ne_of_lt (h.id_lt i d hi))
  | contains text => exact h.idle rfl rfl rfl rfl fun entry hmem => hmem
  | clear => exact h.idle rfl rfl rfl rfl fun entry hmem => absurd hmem List.not_mem_nil

theorem traced_after (h : s.Traced past) (requests : List Request) :
    (s.after requests).Traced (past ++ s.history requests) := by
  induction requests generalizing s past with
  | nil =>
    rw [show s.history [] = [] from rfl, List.append_nil]
    exact h
  | cons request requests ih =>
    rw [history_cons, List.append_cons]
    exact ih (traced_next h request)

/-! ## Found and new formulas -/

/-- A formula that a step hands out was found in the cache, or is compiled and gets the next
number. -/
theorem delivery?_reply {request : Request}
    (h : delivery? (request, (s.reply request).2.1) = some d) :
    d.first = s.origin d.shared ∧
    (s.cache.formulas.find? d.text = some d.shared ∧ (s.reply request).1 = [.cacheHit d.text] ∨
      s.cache.formulas.find? d.text = none ∧ d.shared.id = s.cache.compiled ∧
        (s.reply request).1 =
          .cacheMiss d.text :: (Formula.compile s.cache.limits d.text).events) := by
  cases request with
  | get text bindings =>
    rcases hget : (s.cache.get text).result with e | ⟨shared, cache⟩
    · rw [reply_of_get_eq_error bindings hget] at h
      cases h
    obtain ⟨-, -, hways⟩ := Cache.exists_of_get hget
    rw [reply_of_get_eq_ok bindings hget] at h ⊢
    cases h
    refine ⟨rfl, ?_⟩
    rcases hways with ⟨hfind, -⟩ | ⟨hfind, hid, -⟩
    · exact .inl ⟨hfind, congrArg Logged.events (Cache.get_of_find?_eq_some hfind)⟩
    · exact .inr ⟨hfind, hid, congrArg Logged.events (Cache.get_of_find?_eq_none hfind)⟩
  | contains text => cases h
  | clear => cases h

/-- A formula is one that was handed out before just if its text is in the cache. -/
theorem Traced.exists_delivered_iff (h : s.Traced past) {request : Request}
    (hd : delivery? (request, (s.reply request).2.1) = some d) :
    (∃ i d', delivered past i = some d' ∧ d'.shared.id = d.shared.id) ↔
      s.cache.contains d.text = true := by
  rw [Cache.contains, ← Recent.isSome_find?]
  obtain ⟨-, ⟨hl, -⟩ | ⟨hl, hid, -⟩⟩ := delivery?_reply hd
  · obtain ⟨i, first, hi, -⟩ := h.latest d.text d.shared (Recent.mem_entries_of_find? hl)
    rw [hl]
    exact iff_of_true ⟨i, _, hi, rfl⟩ rfl
  · rw [hl]
    refine iff_of_false ?_ Bool.false_ne_true
    rintro ⟨i, d', hi, heq⟩
    exact absurd (heq.trans hid) (Nat.ne_of_lt (h.id_lt i d' hi))

/-- A formula of a text in the cache is the last that was handed out for the text. -/
theorem Traced.exists_latest (h : s.Traced past) {request : Request}
    (hd : delivery? (request, (s.reply request).2.1) = some d)
    (hc : s.cache.contains d.text = true) :
    (s.reply request).1 = [.cacheHit d.text] ∧ ∃ i, delivered past i = some d ∧
      ∀ k d', i < k → delivered past k = some d' → d'.text ≠ d.text := by
  rw [Cache.contains, ← Recent.isSome_find?] at hc
  obtain ⟨hfirst, ⟨hl, hevents⟩ | ⟨hl, -⟩⟩ := delivery?_reply hd
  · obtain ⟨i, first, hi, hlater⟩ := h.latest d.text d.shared (Recent.mem_entries_of_find? hl)
    have heq : d.first = first := hfirst.trans (h.origin_eq hi)
    rw [← heq] at hi
    exact ⟨hevents, i, hi, hlater⟩
  · rw [hl] at hc
    cases hc

/-- A formula of a text that is not in the cache is compiled at this step. -/
theorem Traced.first_eq (h : s.Traced past) {request : Request}
    (hd : delivery? (request, (s.reply request).2.1) = some d)
    (hc : s.cache.contains d.text = false) :
    d.first = past.length ∧ (s.reply request).1 =
      .cacheMiss d.text :: (Formula.compile s.cache.limits d.text).events := by
  rw [Cache.contains, ← Recent.isSome_find?] at hc
  obtain ⟨hfirst, ⟨hl, -⟩ | ⟨-, hid, hevents⟩⟩ := delivery?_reply hd
  · rw [hl] at hc
    cases hc
  · exact ⟨hfirst.trans (h.origin_new hid), hevents⟩

/-! ## The steps of a whole session -/

theorem length_history (s : Session) (requests : List Request) :
    (s.history requests).length = requests.length := by
  induction requests generalizing s with
  | nil => rfl
  | cons request requests ih => rw [history_cons, List.length_cons, List.length_cons, ih]

theorem history_append (s : Session) (requests requests' : List Request) :
    s.history (requests ++ requests') =
      s.history requests ++ (s.after requests).history requests' := by
  induction requests generalizing s with
  | nil => rfl
  | cons request requests ih =>
    rw [List.cons_append, history_cons, history_cons, ih, List.cons_append]
    rfl

/-- What is handed out at a step is handed out by the session as the steps before left it. -/
theorem exists_of_delivered {requests : List Request} {j : Nat}
    (h : delivered (s.history requests) j = some d) : ∃ request, requests[j]? = some request ∧
      delivery? (request, ((s.after (requests.take j)).reply request).2.1) = some d ∧
      (s.history (requests.take j)).length = j ∧
      ∀ i < j, delivered (s.history requests) i = delivered (s.history (requests.take j)) i := by
  have hj : j < requests.length := by
    rw [← length_history s]
    exact lt_length_of_delivered h
  have hlength : (s.history (requests.take j)).length = j := by
    rw [length_history, List.length_take, Nat.min_eq_left (Nat.le_of_lt hj)]
  obtain ⟨rest, hsplit⟩ : ∃ rest, s.history requests = s.history (requests.take j) ++
      (requests[j], ((s.after (requests.take j)).reply requests[j]).2.1) :: rest := by
    refine ⟨((s.after (requests.take j)).next requests[j]).history (requests.drop (j + 1)), ?_⟩
    rw [← history_cons, ← List.drop_eq_getElem_cons hj, ← history_append, List.take_append_drop]
  rw [hsplit] at h
  refine ⟨requests[j], List.getElem?_eq_getElem hj, ?_, hlength, fun i hi => ?_⟩
  · exact delivered_append_length.symm.trans ((congrArg (delivered _) hlength).trans h)
  · rw [hsplit]
    exact delivered_append_of_lt (by rwa [hlength])

/-- In a session with a new cache, a text is answered by a formula that was handed out before just
if it is in the cache. It is then the formula handed out for this text the last time, and the cache
only notes that it found it; otherwise the formula is compiled at this step. The step named with a
formula is the first that handed it out, and formulas of different texts are different. -/
theorem shared_iff_contains (limits : Limits) (capacity : Nat) (h : 0 < capacity)
    (requests : List Request) :
    let s := start (.empty limits capacity h)
    let past := s.history requests
    (∀ j d, delivered past j = some d →
      let cache := (s.after (requests.take j)).cache
      ((∃ i < j, ∃ d', delivered past i = some d' ∧ d'.shared.id = d.shared.id) ↔
        cache.contains d.text = true) ∧
      (cache.contains d.text = true →
        (∃ i < j, delivered past i = some d ∧
          ∀ k d', i < k → k < j → delivered past k = some d' → d'.text ≠ d.text) ∧
        ∃ answer, (s.run requests)[j]? = some ([.cacheHit d.text], answer)) ∧
      (cache.contains d.text = false → d.first = j ∧ ∃ answer, (s.run requests)[j]? =
        some (.cacheMiss d.text :: (Formula.compile limits d.text).events, answer))) ∧
    (∀ j d, delivered past j = some d → delivered past d.first = some d ∧
      ∀ i d', delivered past i = some d' → d'.shared.id = d.shared.id → d.first ≤ i) ∧
    ∀ i j d d', delivered past i = some d → delivered past j = some d' → d.text ≠ d'.text →
      d.shared.id ≠ d'.shared.id := by
  intro s past
  have hnew : s.Traced [] := traced_start limits capacity h
  have hall : (s.after requests).Traced past := traced_after hnew requests
  refine ⟨fun j d hd => ?_, fun j d hd => ?_, fun i j d d' hd hd' htext hid => ?_⟩
  · obtain ⟨request, hrequest, hreply, hlength, hbefore⟩ := exists_of_delivered hd
    have htraced : (s.after (requests.take j)).Traced (s.history (requests.take j)) :=
      traced_after hnew (requests.take j)
    have hlimits : (s.after (requests.take j)).cache.limits = limits :=
      (coherent_after (Cache.coherent_empty limits capacity h) (requests.take j)).2
    have hrun : ∃ answer, (s.run requests)[j]? =
        some (((s.after (requests.take j)).reply request).1, answer) :=
      ⟨_, by rw [getElem?_run, hrequest]; rfl⟩
    have hlt {i : Nat} {d' : Delivery} (hi : delivered (s.history (requests.take j)) i = some d') :
        i < j := hlength ▸ lt_length_of_delivered hi
    refine ⟨?_, fun hc => ?_, fun hc => ?_⟩
    · rw [← htraced.exists_delivered_iff hreply]
      constructor
      · rintro ⟨i, hi, d', hd', heq⟩
        exact ⟨i, d', by rwa [← hbefore i hi], heq⟩
      · rintro ⟨i, d', hd', heq⟩
        exact ⟨i, hlt hd', d', by rwa [hbefore i (hlt hd')], heq⟩
    · obtain ⟨hevents, i, hi, hlater⟩ := htraced.exists_latest hreply hc
      rw [hevents] at hrun
      refine ⟨⟨i, hlt hi, by rwa [hbefore i (hlt hi)], fun k d' hik hkj hk => ?_⟩, hrun⟩
      rw [hbefore k hkj] at hk
      exact hlater k d' hik hk
    · obtain ⟨hfirst, hevents⟩ := htraced.first_eq hreply hc
      rw [hevents, hlimits] at hrun
      exact ⟨hfirst.trans hlength, hrun⟩
  · refine ⟨(hall.first j d hd).2, fun i d' hi heq => ?_⟩
    rw [← hall.unique i j d' d hi hd heq]
    exact (hall.first i d' hi).1
  · exact htext (congrArg Delivery.text (hall.unique i j d d' hd hd' hid))

/-- With room for one formula, `y` displaces `x`: the second request for `x` compiles it again, and
the third is answered by that formula. -/
theorem shared_after_displacement :
    let s := start (.empty {} 1 Nat.one_pos)
    let requests : List Request := ["x", "y", "x", "x"].map (.get · none)
    let past := s.history requests
    let x : Formula := ⟨"x", .variable "x", ["x"]⟩
    let y : Formula := ⟨"y", .variable "y", ["y"]⟩
    (delivered past 0 = some ⟨"x", ⟨0, x⟩, 0⟩ ∧ delivered past 1 = some ⟨"y", ⟨1, y⟩, 1⟩ ∧
      delivered past 2 = some ⟨"x", ⟨2, x⟩, 2⟩ ∧ delivered past 3 = some ⟨"x", ⟨2, x⟩, 2⟩) ∧
    (∃ i < 3, ∃ d', delivered past i = some d' ∧ d'.shared.id = 2) ∧
    (∃ answer, (s.run requests)[3]? = some ([.cacheHit "x"], answer)) ∧
    ∃ answer, (s.run requests)[2]? =
      some (.cacheMiss "x" :: (Formula.compile {} "x").events, answer) := by
  intro s requests past x y
  obtain ⟨hsteps, -⟩ := shared_iff_contains {} 1 Nat.one_pos requests
  have hthird : delivered past 2 = some ⟨"x", ⟨2, x⟩, 2⟩ := by with_unfolding_all rfl
  have hfourth : delivered past 3 = some ⟨"x", ⟨2, x⟩, 2⟩ := by with_unfolding_all rfl
  have habsent : (s.after (requests.take 2)).cache.contains "x" = false := by with_unfolding_all rfl
  have hpresent : (s.after (requests.take 3)).cache.contains "x" = true := by with_unfolding_all rfl
  obtain ⟨hiff, hfound, -⟩ := hsteps 3 _ hfourth
  exact ⟨⟨by with_unfolding_all rfl, by with_unfolding_all rfl, hthird, hfourth⟩,
    hiff.mpr hpresent, (hfound hpresent).2, ((hsteps 2 _ hthird).2.2 habsent).2⟩

end Session

end Formulary
