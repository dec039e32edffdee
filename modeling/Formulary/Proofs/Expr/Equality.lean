import Formulary.Proofs.Expr.Written
import Formulary.Proofs.Number.Equality

/-!
# Comparing trees

Trees are compared leaf by leaf, and their numbers as floats are. A writable tree, whose numbers are
finite and have a clear sign bit, equals a tree only if it is what that one becomes without the
signs of its numbers (`Expr.eq_unsigned_of_beq`). Two writable trees compare as equal when they are
equal (`Expr.beq_iff_eq_of_writable`), and then only do they have the same text
(`Expr.text_injective`).
-/

namespace Formulary.Expr

/-- Trees with finite numbers, and with no closing brace in a name. Their texts have tokens. -/
def Scannable : Expr → Prop
  | number x => Number.IsFinite x
  | .variable name => (Token.variable name).Writable
  | binary l _ r => l.Scannable ∧ r.Scannable

/-- The tree with every sign bit cleared. -/
def unsigned : Expr → Expr
  | number x => number (Number.ofPattern (Number.magnitude x))
  | .variable name => .variable name
  | binary l op r => binary l.unsigned op r.unsigned

theorem size_unsigned (t : Expr) : t.unsigned.size = t.size := by
  induction t with
  | number x => rfl
  | «variable» name => rfl
  | binary l op r ihl ihr => rw [unsigned, size, ihl, ihr, size]

theorem unsigned_eq_self {t : Expr} (h : t.Writable) : t.unsigned = t := by
  induction t with
  | number x => rw [unsigned, Number.ofPattern_magnitude h.2]
  | «variable» name => rfl
  | binary l op r ihl ihr => rw [unsigned, ihl h.1, ihr h.2]

theorem beq_self {t : Expr} (h : t.Writable) : (t == t) = true := by
  induction t with
  | number x => exact Number.beq_self h.1
  | «variable» name => exact beq_self_eq_true name
  | binary l op r ihl ihr =>
    show (l == l && (op == op && r == r)) = true
    rw [ihl h.1, ihr h.2, beq_self_eq_true]
    rfl

/-- A writable tree that equals `t` is `t` without the signs of its numbers, and these are finite,
because the numbers of a writable tree are. -/
theorem eq_unsigned_of_beq {u t : Expr} (hu : u.Writable) (h : (u == t) = true) :
    u = t.unsigned ∧ t.Scannable := by
  induction u generalizing t with
  | number x =>
    cases t with
    | number y =>
      have hm := Number.magnitude_eq_of_beq (show (x == y) = true from h)
      obtain ⟨hfinite, hsign⟩ := hu
      refine ⟨?_, ?_⟩
      · rw [unsigned, ← hm, Number.ofPattern_magnitude hsign]
      · rwa [Scannable, Number.IsFinite, ← hm]
    | _ => cases h
  | «variable» name =>
    cases t with
    | «variable» other =>
      obtain rfl : name = other := eq_of_beq h
      exact ⟨rfl, hu⟩
    | _ => cases h
  | binary l op r ihl ihr =>
    cases t with
    | binary l' op' r' =>
      have hparts : (l == l' && (op == op' && r == r')) = true := h
      simp only [Bool.and_eq_true] at hparts
      obtain ⟨hl, hop, hr⟩ := hparts
      obtain ⟨rfl, hl'⟩ := ihl hu.1 hl
      obtain ⟨rfl, hr'⟩ := ihr hu.2 hr
      rw [eq_of_beq hop]
      exact ⟨rfl, hl', hr'⟩
    | _ => cases h

variable {t u : Expr}

theorem beq_iff_eq_of_writable (ht : t.Writable) (hu : u.Writable) : (t == u) = true ↔ t = u := by
  constructor
  · intro h
    rw [(eq_unsigned_of_beq ht h).1, unsigned_eq_self hu]
  · rintro rfl
    exact beq_self ht

/-- No two writable trees have the same text, however high they are. -/
theorem text_injective (ht : t.Writable) (hu : u.Writable) (h : t.text = u.text) : t = u := by
  have hscan := (spells_text ht).scan
  rw [h, (spells_text hu).scan] at hscan
  exact bracketed_injective (Except.ok.inj hscan).symm

end Formulary.Expr
