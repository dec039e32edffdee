import Formulary.Bindings
import Formulary.Proofs.Text.Distinct
import Mathlib.Logic.Basic

/-!
# What the check of bindings finds

The three outcomes of `Bindings.check`. A name is missing if it is required, not free and not bound;
the first of the missing names is reported (`missing?_eq_some_iff`). If none is missing, a bound
name that is not required, or is free, is reported, the least of them (`unknown?_eq_some_iff`). So
the check succeeds if the bound names are the required ones without the free one
(`check_eq_ok_iff`).

Nothing else counts: neither the bound values, nor the order of the bindings (`check_congr`), nor
how often a name is required after its first place (`check_eraseDups`). The outcomes are put
together in `check_outcome_iff`.
-/

namespace Formulary.Bindings

/-! ## The least name -/

theorem least?_eq_none_iff {names : List String} : least? names = none ↔ names = [] := by
  rcases names with _ | ⟨name, names⟩
  · exact iff_of_true rfl rfl
  · rw [least?]
    split <;> simp

theorem le_of_least? {names : List String} {name : String} (h : least? names = some name) :
    name ∈ names ∧ ∀ other ∈ names, name ≤ other := by
  induction names generalizing name with
  | nil => cases h
  | cons first names ih =>
    rw [least?] at h
    split at h
    case h_1 hnone =>
      obtain rfl := least?_eq_none_iff.mp hnone
      cases h
      simp
    case h_2 least hleast =>
      obtain ⟨hmem, hle⟩ := ih hleast
      cases h
      split
      case isTrue h =>
        refine ⟨List.mem_cons_self .., fun other ho => ?_⟩
        rcases List.mem_cons.mp ho with rfl | ho
        · exact String.le_refl _
        · exact String.le_trans h (hle other ho)
      case isFalse h =>
        refine ⟨List.mem_cons_of_mem _ hmem, fun other ho => ?_⟩
        rcases List.mem_cons.mp ho with rfl | ho
        · exact (String.le_total _ _).resolve_left h
        · exact hle other ho

theorem least?_eq_some_iff {names : List String} {name : String} :
    least? names = some name ↔ name ∈ names ∧ ∀ other ∈ names, name ≤ other := by
  refine ⟨le_of_least?, fun ⟨hmem, hle⟩ => ?_⟩
  obtain ⟨least, hleast⟩ : ∃ least, least? names = some least := by
    refine Option.ne_none_iff_exists'.mp fun hnone => ?_
    rw [least?_eq_none_iff.mp hnone] at hmem
    cases hmem
  obtain ⟨hmem', hle'⟩ := le_of_least? hleast
  rw [hleast, String.le_antisymm (hle' name hmem) (hle least hmem')]

/-! ## Missing and unknown names -/

section Outcomes

variable {b : Bindings} {required : List String} {free : Option String} {name : String}

/-- The name is required, and neither free nor bound; the names that are required before it are free
or bound. -/
def FirstMissing (b : Bindings) (required : List String) (free : Option String) (name : String) :
    Prop :=
  ∃ before after, required = before ++ name :: after ∧ some name ≠ free ∧ name ∉ b.names ∧
    ∀ other ∈ before, some other = free ∨ other ∈ b.names

/-- The name is bound, and either it is not required or it is free. -/
def Unknown (b : Bindings) (required : List String) (free : Option String) (name : String) : Prop :=
  name ∈ b.names ∧ (name ∉ required ∨ some name = free)

theorem missing?_eq_some_iff :
    b.missing? required free = some name ↔ b.FirstMissing required free name := by
  rw [missing?, List.find?_eq_some_iff_append, FirstMissing]
  simp only [Bool.and_eq_true, decide_eq_true_eq, Bool.not_eq_true', ← Bool.not_eq_true,
    contains_iff_mem, not_and_or, not_not]
  constructor
  · rintro ⟨⟨hfree, hname⟩, before, after, heq, hbefore⟩
    exact ⟨before, after, heq, hfree, hname, hbefore⟩
  · rintro ⟨before, after, heq, hfree, hname, hbefore⟩
    exact ⟨⟨hfree, hname⟩, before, after, heq, hbefore⟩

theorem missing?_eq_none_iff : b.missing? required free = none ↔
    ∀ other ∈ required, some other = free ∨ other ∈ b.names := by
  rw [missing?, List.find?_eq_none]
  simp only [Bool.and_eq_true, decide_eq_true_eq, Bool.not_eq_true', ← Bool.not_eq_true,
    contains_iff_mem, not_and_or, not_not]

theorem unknown?_eq_some_iff : b.unknown? required free = some name ↔
    b.Unknown required free name ∧ ∀ other, b.Unknown required free other → name ≤ other := by
  rw [unknown?, least?_eq_some_iff]
  simp [Unknown]

theorem unknown?_eq_none_iff : b.unknown? required free = none ↔
    ∀ other, ¬ b.Unknown required free other := by
  rw [unknown?, least?_eq_none_iff, List.filter_eq_nil_iff]
  simp [Unknown]

/-! ## The outcome of the check -/

theorem check_of_firstMissing (h : b.FirstMissing required free name) :
    b.check required free = .error (.missingVariable name) := by
  rw [check, missing?_eq_some_iff.mpr h]

theorem check_of_unknown (hm : ∀ other ∈ required, some other = free ∨ other ∈ b.names)
    (h : b.Unknown required free name)
    (hle : ∀ other, b.Unknown required free other → name ≤ other) :
    b.check required free = .error (.unknownVariable name) := by
  rw [check, missing?_eq_none_iff.mpr hm, unknown?_eq_some_iff.mpr ⟨h, hle⟩]

/-- The outcome depends only on which names are provided and which are unknown. -/
theorem check_congr {b' : Bindings} {free' : Option String}
    (hm : ∀ other ∈ required, (some other = free ∨ other ∈ b.names) ↔
      (some other = free' ∨ other ∈ b'.names))
    (hu : ∀ other, b.Unknown required free other ↔ b'.Unknown required free' other) :
    b.check required free = b'.check required free' := by
  have hmissing : b.missing? required free = b'.missing? required free' := by
    refine Option.ext fun name => ?_
    rw [missing?_eq_some_iff, missing?_eq_some_iff]
    refine exists_congr fun before => exists_congr fun after => and_congr_right ?_
    rintro rfl
    have hname := hm name (List.mem_append_right _ (List.mem_cons_self ..))
    have hbefore (other : String) (ho : other ∈ before) := hm other (List.mem_append_left _ ho)
    rw [← and_assoc, ← and_assoc, ← not_or, ← not_or, hname]
    exact and_congr_right fun _ => forall₂_congr hbefore
  have hunknown : b.unknown? required free = b'.unknown? required free' := by
    refine Option.ext fun name => ?_
    rw [unknown?_eq_some_iff, unknown?_eq_some_iff, hu name]
    exact and_congr_right fun _ => forall_congr' fun other => imp_congr_left (hu other)
  rw [check, check, hmissing, hunknown]

theorem check_eq_ok_iff : b.check required free = .ok () ↔
    (∀ other ∈ required, some other = free ∨ other ∈ b.names) ∧
      ∀ other, ¬ b.Unknown required free other := by
  rw [← missing?_eq_none_iff, ← unknown?_eq_none_iff, check]
  rcases b.missing? required free with _ | name
  · rcases b.unknown? required free with _ | name <;> simp
  · simp

/-- The check succeeds if the bound names are those that are required and not free. -/
theorem check_eq_ok_iff_names : b.check required free = .ok () ↔
    ∀ name, name ∈ b.names ↔ name ∈ required ∧ some name ≠ free := by
  rw [check_eq_ok_iff]
  constructor
  · rintro ⟨hprovided, hknown⟩ name
    constructor
    · intro hbound
      have hname := hknown name
      rw [Unknown, not_and_or, not_or, not_not] at hname
      exact hname.resolve_left (not_not_intro hbound)
    · rintro ⟨hrequired, hfree⟩
      exact (hprovided name hrequired).resolve_left hfree
  · intro hsame
    refine ⟨fun name hrequired => ?_, fun name ⟨hbound, hname⟩ => ?_⟩
    · rw [hsame name]
      exact (em (some name = free)).imp id fun hfree => ⟨hrequired, hfree⟩
    · obtain ⟨hrequired, hfree⟩ := (hsame name).mp hbound
      exact hname.elim (fun h => h hrequired) hfree

theorem check_eq_missing_iff : b.check required free = .error (.missingVariable name) ↔
    b.FirstMissing required free name := by
  refine ⟨fun h => ?_, check_of_firstMissing⟩
  rw [← missing?_eq_some_iff]
  rw [check] at h
  split at h
  case h_1 other hother =>
    cases h
    exact hother
  case h_2 =>
    split at h <;> cases h

theorem check_eq_unknown_iff : b.check required free = .error (.unknownVariable name) ↔
    (∀ other ∈ required, some other = free ∨ other ∈ b.names) ∧ b.Unknown required free name ∧
      ∀ other, b.Unknown required free other → name ≤ other := by
  refine ⟨fun h => ?_, fun ⟨hm, hname, hle⟩ => check_of_unknown hm hname hle⟩
  rw [← missing?_eq_none_iff, ← unknown?_eq_some_iff]
  rw [check] at h
  split at h
  case h_1 => cases h
  case h_2 hnone =>
    split at h <;> cases h
    exact ⟨hnone, ‹_›⟩

theorem exists_firstMissing_iff : (∃ name, b.FirstMissing required free name) ↔
    ∃ name ∈ required, some name ≠ free ∧ name ∉ b.names := by
  simp only [← missing?_eq_some_iff, ← Option.ne_none_iff_exists', Ne, missing?_eq_none_iff]
  simp only [not_forall, not_or, exists_prop]

/-- Of some unknown names one is the least. -/
theorem exists_least_unknown_iff : (∃ name, b.Unknown required free name) ↔
    ∃ name, b.Unknown required free name ∧
      ∀ other, b.Unknown required free other → name ≤ other := by
  simp only [← unknown?_eq_some_iff, ← Option.ne_none_iff_exists', Ne, unknown?_eq_none_iff]
  simp only [not_forall, not_not]

/-- A name that is required more than once counts at its first place. -/
theorem check_eraseDups (b : Bindings) (required : List String) (free : Option String) :
    b.check required.eraseDups free = b.check required free := by
  have hmissing : b.missing? required.eraseDups free = b.missing? required free :=
    find?_eraseDups _ required
  have hunknown : b.unknown? required.eraseDups free = b.unknown? required free := by
    refine Option.ext fun name => ?_
    simp only [unknown?_eq_some_iff, Unknown, List.mem_eraseDups]
  rw [check, check, hmissing, hunknown]

end Outcomes

/-- The check reports the first required name that is missing, if there is one; else the least name
that is unknown, if there is one; and else it succeeds, which it does if the bound names are those
that are required and not free. It depends on the set of the bound names alone, and on the required
names in the order in which they first occur. -/
theorem check_outcome_iff (b : Bindings) (required : List String) (free : Option String) :
    ((∀ name, b.check required free = .error (.missingVariable name) ↔
        b.FirstMissing required free name) ∧
      ((∃ name, b.check required free = .error (.missingVariable name)) ↔
        ∃ name ∈ required, some name ≠ free ∧ name ∉ b.names)) ∧
    ((∀ name, b.check required free = .error (.unknownVariable name) ↔
        (∀ other ∈ required, some other = free ∨ other ∈ b.names) ∧
          b.Unknown required free name ∧ ∀ other, b.Unknown required free other → name ≤ other) ∧
      ((∃ name, b.check required free = .error (.unknownVariable name)) ↔
        (∀ other ∈ required, some other = free ∨ other ∈ b.names) ∧
          ∃ name ∈ b.names, name ∉ required ∨ some name = free)) ∧
    (b.check required free = .ok () ↔
      ∀ name, name ∈ b.names ↔ name ∈ required ∧ some name ≠ free) ∧
    ∀ (b' : Bindings) (required' : List String), (∀ name, name ∈ b'.names ↔ name ∈ b.names) →
      required'.eraseDups = required.eraseDups →
        b'.check required' free = b.check required free := by
  refine ⟨⟨fun name => check_eq_missing_iff, ?_⟩, ⟨fun name => check_eq_unknown_iff, ?_⟩,
    check_eq_ok_iff_names, fun b' required' hnames hrequired => ?_⟩
  · simp only [check_eq_missing_iff, exists_firstMissing_iff]
  · simp only [check_eq_unknown_iff, exists_and_left]
    exact and_congr_right fun _ => exists_least_unknown_iff.symm
  · rw [← check_eraseDups b', hrequired, check_eraseDups]
    refine check_congr (fun name _ => or_congr_right (hnames name)) fun name => ?_
    rw [Unknown, Unknown, hnames name]

/-- The same names in another order and with other values, and a required name that is repeated. -/
theorem check_outcome_reordered :
    let b := ofList [("y", 1), ("z", 2), ("w", 3)]
    let b' := ofList [("w", 0), ("y", 4), ("z", 5)]
    (∀ name, name ∈ b'.names ↔ name ∈ b.names) ∧
    ["y", "x"].eraseDups = ["y", "x", "y"].eraseDups ∧
    b.check ["y", "x", "y"] (some "x") = .error (.unknownVariable "w") ∧
    b'.check ["y", "x"] (some "x") = .error (.unknownVariable "w") := by
  intro b b'
  have hnames (name : String) : name ∈ b'.names ↔ name ∈ b.names := by
    show name ∈ ["z", "y", "w"] ↔ name ∈ ["w", "z", "y"]
    simp only [List.mem_cons, List.not_mem_nil, or_false]
    rw [← or_assoc, or_comm]
  have hrequired : ["y", "x"].eraseDups = ["y", "x", "y"].eraseDups := by decide
  have hcheck : b.check ["y", "x", "y"] (some "x") = .error (.unknownVariable "w") := rfl
  obtain ⟨-, -, -, hsame⟩ := check_outcome_iff b ["y", "x", "y"] (some "x")
  exact ⟨hnames, hrequired, hcheck, (hsame b' ["y", "x"] hnames hrequired).trans hcheck⟩

end Formulary.Bindings
