import Formulary.Event

/-!
# Logged computations

A `Logged ε α` is the outcome of a computation, a value or an error, with the records that it left
on the way. A failure ends the computation but keeps its records. The lemmas say what `pure`, `>>=`,
`emit` and `fail` do to the outcome and to the records.
-/

namespace Formulary

/-- The records of a computation, oldest first, and its outcome. -/
structure Logged (ε α : Type) where
  events : List Event
  result : Except ε α

namespace Logged

variable {ε ε' α β : Type}

/-- Records one event. -/
def emit (e : Event) : Logged ε Unit :=
  ⟨[e], .ok ()⟩

/-- Fails without a record. -/
def fail (e : ε) : Logged ε α :=
  ⟨[], .error e⟩

/-- An outcome without a record. -/
def ofExcept (r : Except ε α) : Logged ε α :=
  ⟨[], r⟩

/-- Goes on from a value; after a failure nothing more happens. -/
def bind (x : Logged ε α) (f : α → Logged ε β) : Logged ε β :=
  match x.result with
  | .ok a => ⟨x.events ++ (f a).events, (f a).result⟩
  | .error e => ⟨x.events, .error e⟩

instance : Monad (Logged ε) where
  pure a := ⟨[], .ok a⟩
  bind := bind

/-- Restates the error of a failure. -/
def mapError (f : ε → ε') (x : Logged ε α) : Logged ε' α :=
  ⟨x.events, x.result.mapError f⟩

@[simp]
theorem result_pure (a : α) : (pure a : Logged ε α).result = .ok a := rfl

@[simp]
theorem events_pure (a : α) : (pure a : Logged ε α).events = [] := rfl

@[simp]
theorem result_bind (x : Logged ε α) (f : α → Logged ε β) :
    (x >>= f).result = x.result >>= fun a => (f a).result := by
  rcases x with ⟨events, _ | _⟩ <;> rfl

theorem result_bind_ok {x : Logged ε α} {f : α → Logged ε β} {a : α} (h : x.result = .ok a) :
    (x >>= f).result = (f a).result := by
  rw [result_bind, h]
  rfl

theorem result_bind_error {x : Logged ε α} {f : α → Logged ε β} {e : ε} (h : x.result = .error e) :
    (x >>= f).result = .error e := by
  rw [result_bind, h]
  rfl

/-- A value at the end comes from a value in the middle. -/
theorem result_bind_eq_ok_iff {x : Logged ε α} {f : α → Logged ε β} {b : β} :
    (x >>= f).result = .ok b ↔ ∃ a, x.result = .ok a ∧ (f a).result = .ok b := by
  cases h : x.result with
  | ok a => simp [result_bind_ok h, -result_bind]
  | error e => simp [result_bind_error h, -result_bind]

/-- An error at the end comes from the beginning or from what follows on a value. -/
theorem result_bind_eq_error_iff {x : Logged ε α} {f : α → Logged ε β} {e : ε} :
    (x >>= f).result = .error e ↔
      x.result = .error e ∨ ∃ a, x.result = .ok a ∧ (f a).result = .error e := by
  cases h : x.result with
  | ok a => simp [result_bind_ok h, -result_bind]
  | error e' => simp [result_bind_error h, -result_bind]

/-- After a failure it does not matter how to go on. -/
theorem bind_congr_ok {x : Logged ε α} {f g : α → Logged ε β}
    (h : ∀ a, x.result = .ok a → f a = g a) : x >>= f = x >>= g := by
  rcases x with ⟨events, _ | a⟩
  · rfl
  · show bind _ f = bind _ g
    simp only [bind, h a rfl]

theorem events_bind_ok {x : Logged ε α} {f : α → Logged ε β} {a : α} (h : x.result = .ok a) :
    (x >>= f).events = x.events ++ (f a).events := by
  show (bind x f).events = _
  simp [bind, h]

theorem events_bind_error {x : Logged ε α} {f : α → Logged ε β} {e : ε} (h : x.result = .error e) :
    (x >>= f).events = x.events := by
  show (bind x f).events = _
  simp [bind, h]

theorem events_prefix_bind (x : Logged ε α) (f : α → Logged ε β) :
    x.events <+: (x >>= f).events := by
  cases h : x.result with
  | ok a =>
    rw [events_bind_ok h]
    exact List.prefix_append _ _
  | error e => exact ⟨[], by rw [events_bind_error h, List.append_nil]⟩

theorem ok_bind (a : α) (f : α → Logged ε β) : bind ⟨[], .ok a⟩ f = f a := by
  simp [bind]

theorem bind_bind {γ : Type} (x : Logged ε α) (f : α → Logged ε β) (g : β → Logged ε γ) :
    bind (bind x f) g = bind x fun a => bind (f a) g := by
  rcases x with ⟨events, _ | a⟩
  · rfl
  · rcases hf : f a with ⟨events', _ | b⟩ <;> simp [bind, hf]

instance : LawfulMonad (Logged ε) :=
  LawfulMonad.mk' _
    (by rintro _ ⟨events, _ | _⟩ <;> simp [Functor.map, bind])
    ok_bind bind_bind

@[simp]
theorem result_map (f : α → β) (x : Logged ε α) : (f <$> x).result = x.result.map f := by
  rcases x with ⟨events, _ | _⟩ <;> rfl

@[simp]
theorem events_map (f : α → β) (x : Logged ε α) : (f <$> x).events = x.events := by
  rcases x with ⟨events, _ | _⟩
  · rfl
  · exact List.append_nil events

theorem result_mapError_eq_ok_iff {f : ε → ε'} {x : Logged ε α} {a : α} :
    (x.mapError f).result = .ok a ↔ x.result = .ok a := by
  rcases x with ⟨events, _ | b⟩
  · exact ⟨nofun, nofun⟩
  · show Except.ok b = Except.ok a ↔ Except.ok b = Except.ok a
    rw [Except.ok.injEq, Except.ok.injEq]

theorem mapError_bind (g : ε → ε') (x : Logged ε α) (f : α → Logged ε β) :
    (x >>= f).mapError g = x.mapError g >>= fun a => (f a).mapError g := by
  rcases x with ⟨events, _ | a⟩ <;> rfl

@[simp]
theorem map_fail (f : α → β) (e : ε) : f <$> (fail e : Logged ε α) = fail e := rfl

end Logged

end Formulary
