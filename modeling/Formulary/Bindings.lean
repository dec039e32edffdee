/-!
# Bindings

`Bindings` give values to names, each name at most once. `Bindings.check` compares the bound names
with those that a formula requires: every required name must be bound, and no other name may be. One
name can be left free; it must not be bound.
-/

namespace Formulary

/-- Values of variables. No name is bound twice. -/
structure Bindings where
  entries : List (String × Float)
  nodup : (entries.map Prod.fst).Nodup

/-- Why a formula cannot be evaluated. -/
inductive BindingError
  | missingVariable (name : String)
  | unknownVariable (name : String)
deriving DecidableEq, Repr

/-- The error as it is shown. -/
def BindingError.message : BindingError → String
  | missingVariable name => "missing variable " ++ name
  | unknownVariable name => "unknown variable " ++ name

namespace Bindings

/-- No bindings. -/
def empty : Bindings :=
  ⟨[], List.nodup_nil⟩

/-- The bound names. -/
def names (b : Bindings) : List String :=
  b.entries.map Prod.fst

/-- The value of a name. -/
def get? (b : Bindings) (name : String) : Option Float :=
  b.entries.lookup name

/-- Whether a name is bound. -/
def contains (b : Bindings) (name : String) : Bool :=
  b.names.contains name

/-- The entries for other names stay without repeats beside a new one. -/
theorem nodup_insert {α : Type} (entries : List (String × α)) (h : (entries.map Prod.fst).Nodup)
    (name : String) (x : α) :
    (((name, x) :: entries.filter (·.1 ≠ name)).map Prod.fst).Nodup := by
  rw [List.map_cons, List.nodup_cons]
  constructor
  · simp
  · exact h.sublist (List.filter_sublist.map _)

/-- Binds a name. An earlier value of the name is lost. -/
def insert (b : Bindings) (name : String) (x : Float) : Bindings :=
  ⟨(name, x) :: b.entries.filter (·.1 ≠ name), nodup_insert b.entries b.nodup name x⟩

/-- The bindings of a list of pairs. The last value of a name counts. -/
def ofList (pairs : List (String × Float)) : Bindings :=
  pairs.foldl (fun b (name, x) => b.insert name x) empty

theorem contains_iff_mem {b : Bindings} {name : String} :
    b.contains name = true ↔ name ∈ b.names := by
  simp [contains]

theorem isSome_get? (b : Bindings) (name : String) : (b.get? name).isSome = b.contains name := by
  rw [Bool.eq_iff_iff]
  simp [get?, contains, names, List.lookup_isSome_iff]

theorem names_insert (b : Bindings) (name : String) (x : Float) :
    (b.insert name x).names = name :: b.names.filter (· ≠ name) := by
  simp [names, insert, List.filter_map, Function.comp_def]

theorem get?_insert (b : Bindings) (name other : String) (x : Float) :
    (b.insert name x).get? other = if other = name then some x else b.get? other := by
  simp only [get?, insert, List.lookup_cons]
  by_cases h : other = name
  · simp [h]
  · simp only [h, if_false, beq_false_of_ne h]
    induction b.entries with
    | nil => rfl
    | cons entry entries ih => grind

/-! ## Checking -/

/-- The first of some names in the order of their characters. -/
def least? : List String → Option String
  | [] => none
  | name :: names =>
    match least? names with
    | none => some name
    | some other => some (if name ≤ other then name else other)

/-- The first required name, other than the free one, that is not bound. -/
def missing? (b : Bindings) (required : List String) (free : Option String) : Option String :=
  required.find? fun name => some name ≠ free && !b.contains name

/-- The least bound name that is not required, or is free. -/
def unknown? (b : Bindings) (required : List String) (free : Option String) : Option String :=
  least? (b.names.filter fun name => !required.contains name || some name = free)

/-- Checks that exactly the required names are bound, apart from the free one. A missing name is
reported before an unknown one. -/
def check (b : Bindings) (required : List String) (free : Option String) :
    Except BindingError Unit :=
  match b.missing? required free with
  | some name => .error (.missingVariable name)
  | none =>
    match b.unknown? required free with
    | some name => .error (.unknownVariable name)
    | none => .ok ()

/-- The value of a name, and not-a-number for a name that is not bound. -/
def value (b : Bindings) (name : String) : Float :=
  (b.get? name).getD (0.0 / 0.0)

end Bindings

end Formulary
