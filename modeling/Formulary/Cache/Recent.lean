import Formulary.Bindings

/-!
# Maps of recent entries

A `Recent` map has room for a fixed number of texts with their values, and keeps those that were
used most recently. Its entries stand in the order of use, the latest first. An entry that is got or
put is now the first one, and if there was no room for it, the last one is dropped.

What is relied on elsewhere are the laws at the end. Which texts a map has after `put`, and in which
order, is said by `keys_put`, and which values they have by `mem_entries_put`. The other questions
are answered from the texts (`length_keys`, `contains_iff_mem`, `isEmpty_iff_keys`) and from the
entries (`isSome_find?`, `mem_entries_of_find?`).
-/

namespace Formulary

/-- Texts with values, at most `capacity` of them, and none of the texts twice. -/
structure Recent (α : Type) where
  capacity : Nat
  capacity_pos : 0 < capacity
  /-- Texts and their values, the most recently used first. -/
  entries : List (String × α)
  nodup : (entries.map Prod.fst).Nodup
  length_le : entries.length ≤ capacity

namespace Recent

variable {α : Type}

/-- A map without entries. -/
def empty (capacity : Nat) (h : 0 < capacity) : Recent α :=
  ⟨capacity, h, [], List.nodup_nil, Nat.zero_le capacity⟩

/-- The texts, the most recently used first. -/
def keys (m : Recent α) : List String :=
  m.entries.map Prod.fst

/-- Whether a text has a value. Asking does not count as use. -/
def contains (m : Recent α) (text : String) : Bool :=
  m.keys.contains text

/-- The number of entries. -/
def size (m : Recent α) : Nat :=
  m.entries.length

/-- Whether there are no entries. -/
def isEmpty (m : Recent α) : Bool :=
  m.entries.isEmpty

/-- Throws all entries away. -/
def clear (m : Recent α) : Recent α :=
  empty m.capacity m.capacity_pos

/-- Enters a value as the most recent one. An earlier value of the text is lost; if there is no room
for another text, the least recently used entry is dropped. -/
def put (m : Recent α) (text : String) (x : α) : Recent α where
  capacity := m.capacity
  capacity_pos := m.capacity_pos
  entries := ((text, x) :: m.entries.filter (·.1 ≠ text)).take m.capacity
  nodup :=
    (Bindings.nodup_insert m.entries m.nodup text x).sublist ((List.take_sublist _ _).map _)
  length_le := List.length_take_le _ _

/-- The value of a text. -/
def find? (m : Recent α) (text : String) : Option α :=
  m.entries.lookup text

/-- The value of a text, and the map in which it is the most recent one. -/
def get? (m : Recent α) (text : String) : Option (α × Recent α) :=
  (m.find? text).map fun x => (x, m.put text x)

/-! ## Keys and entries -/

variable {m : Recent α} {text other : String} {x y : α}

@[simp]
theorem keys_empty (capacity : Nat) (h : 0 < capacity) : (empty capacity h : Recent α).keys = [] :=
  rfl

@[simp]
theorem keys_clear (m : Recent α) : m.clear.keys = [] := rfl

theorem length_keys (m : Recent α) : m.keys.length = m.size :=
  List.length_map _

theorem contains_iff_mem : m.contains text = true ↔ text ∈ m.keys :=
  List.contains_iff_mem

theorem isEmpty_iff_keys : m.isEmpty = true ↔ m.keys = [] := by
  rw [isEmpty, keys, List.isEmpty_iff, List.map_eq_nil_iff]

theorem isSome_find? (m : Recent α) (text : String) : (m.find? text).isSome = m.contains text := by
  rw [Bool.eq_iff_iff]
  simp [find?, contains, keys, List.lookup_isSome_iff]

theorem mem_entries_of_find? (h : m.find? text = some x) : (text, x) ∈ m.entries := by
  obtain ⟨before, after, hentries, -⟩ := List.lookup_eq_some_iff.mp h
  rw [hentries]
  exact List.mem_append_right _ (List.mem_cons_self ..)

/-- The most recent entry is that of the text, and the others go on in their order as far as there
is room. -/
theorem keys_put (m : Recent α) (text : String) (x : α) :
    (m.put text x).keys = (text :: m.keys.filter (· ≠ text)).take m.capacity := by
  simp [keys, put, List.filter_map, Function.comp_def]

theorem mem_entries_put (h : (other, y) ∈ (m.put text x).entries) :
    other = text ∧ y = x ∨ other ≠ text ∧ (other, y) ∈ m.entries := by
  rcases List.mem_cons.mp (List.mem_of_mem_take h) with heq | hmem
  · cases heq
    exact .inl ⟨rfl, rfl⟩
  · obtain ⟨hmem, hne⟩ := List.mem_filter.mp hmem
    exact .inr ⟨of_decide_eq_true hne, hmem⟩

end Recent

end Formulary
