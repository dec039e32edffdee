import Formulary.Cache.Recent
import Formulary.Formula

/-!
# A cache of formulas

The cache keeps the formulas of the texts that were asked for most recently, in a `Recent` map. A
text that does not compile is not kept.

Every formula that the cache compiles gets a number of its own (`Shared.id`), so that one can tell
whether two answers are the same formula object.
-/

namespace Formulary

/-- A compiled formula that is handed out by the cache, numbered in the order of compilation. -/
structure Shared where
  id : Nat
  formula : Formula

/-- The formulas in use, by text. -/
structure Cache where
  limits : Limits
  formulas : Recent Shared
  /-- How many formulas were compiled so far. -/
  compiled : Nat

namespace Cache

/-- A cache without entries. -/
def empty (limits : Limits) (capacity : Nat) (h : 0 < capacity) : Cache :=
  ⟨limits, .empty capacity h, 0⟩

/-- The number of formulas that there is room for. -/
def capacity (c : Cache) : Nat :=
  c.formulas.capacity

/-- Texts and their formulas, the most recently used first. -/
def entries (c : Cache) : List (String × Shared) :=
  c.formulas.entries

/-- The texts in the cache, the most recently used first. -/
def keys (c : Cache) : List String :=
  c.formulas.keys

/-- Whether a text is in the cache. Asking does not count as use. -/
def contains (c : Cache) (text : String) : Bool :=
  c.formulas.contains text

/-- The number of formulas in the cache. -/
def size (c : Cache) : Nat :=
  c.formulas.size

/-- Whether the cache has no formulas. -/
def isEmpty (c : Cache) : Bool :=
  c.formulas.isEmpty

/-- Throws all formulas away. -/
def clear (c : Cache) : Cache :=
  { c with formulas := c.formulas.clear }

/-- Enters a formula as the most recently used one. -/
def keep (c : Cache) (text : String) (shared : Shared) : Cache :=
  { c with formulas := c.formulas.put text shared }

/-- The formula of a text, from the cache or compiled now, and the cache after that. -/
def get (c : Cache) (text : String) : Logged CompileError (Shared × Cache) :=
  match c.formulas.get? text with
  | some (shared, formulas) => do
    .emit (.cacheHit text)
    return (shared, { c with formulas })
  | none => do
    .emit (.cacheMiss text)
    let formula ← Formula.compile c.limits text
    let shared : Shared := ⟨c.compiled, formula⟩
    return (shared, { c.keep text shared with compiled := c.compiled + 1 })

/-! ## The two ways to get a formula -/

variable {c c' : Cache} {text : String} {shared : Shared}

theorem get_of_find?_eq_some (h : c.formulas.find? text = some shared) :
    c.get text = ⟨[.cacheHit text], .ok (shared, c.keep text shared)⟩ := by
  rw [get, Recent.get?, h]
  rfl

theorem get_of_find?_eq_none (h : c.formulas.find? text = none) :
    c.get text = ⟨.cacheMiss text :: (Formula.compile c.limits text).events,
      (Formula.compile c.limits text).result.map fun f =>
        (⟨c.compiled, f⟩, { c.keep text ⟨c.compiled, f⟩ with compiled := c.compiled + 1 })⟩ := by
  rw [get, Recent.get?, h]
  rcases Formula.compile c.limits text with ⟨events, e | f⟩
  · rfl
  · show (⟨[Event.cacheMiss text] ++ (events ++ []), _⟩ : Logged CompileError (Shared × Cache)) = _
    rw [List.append_nil]
    rfl

/-- A formula that is got is now the most recent one. It was found, or it is compiled now and gets
the next number. -/
theorem exists_of_get (h : (c.get text).result = .ok (shared, c')) :
    c'.limits = c.limits ∧ c'.formulas = c.formulas.put text shared ∧
      (c.formulas.find? text = some shared ∧ c'.compiled = c.compiled ∨
        c.formulas.find? text = none ∧ shared.id = c.compiled ∧ c'.compiled = c.compiled + 1 ∧
          (Formula.compile c.limits text).result = .ok shared.formula) := by
  cases hfind : c.formulas.find? text with
  | some held =>
    rw [get_of_find?_eq_some hfind] at h
    cases h
    exact ⟨rfl, rfl, .inl ⟨rfl, rfl⟩⟩
  | none =>
    rw [get_of_find?_eq_none hfind] at h
    cases hf : (Formula.compile c.limits text).result with
    | error e =>
      rw [hf] at h
      cases h
    | ok f =>
      rw [hf] at h
      cases h
      exact ⟨rfl, rfl, .inr ⟨rfl, rfl, rfl, rfl⟩⟩

end Cache

end Formulary
