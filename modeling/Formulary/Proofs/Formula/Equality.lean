import Formulary.Proofs.Formula.Evaluation
import Formulary.Proofs.Formula.RoundTrip

/-!
# Comparing formulas

Formulas are compared by their sources, their trees and their required variables, and numbers in the
trees as floats are, for which not-a-number differs from itself and zeros of either sign are equal.
The tree of a compiled formula holds neither a not-a-number nor a negative zero, so comparing
compiled formulas is equality: they are equal when their sources are, and their trees are equal when
the texts of these are (`Formula.beq_iff_of_compile`). Formulas with equal trees have the same
values and the same errors.
-/

namespace Formulary.Formula

theorem beq_iff_eq_of_writable {f g : Formula} (hf : f.tree.Writable) (hg : g.tree.Writable) :
    (f == g) = true ↔ f = g := by
  obtain ⟨source, tree, required⟩ := f
  obtain ⟨source', tree', required'⟩ := g
  show (source == source' && (tree == tree' && required == required')) = true ↔ _
  rw [Bool.and_eq_true, Bool.and_eq_true, Expr.beq_iff_eq_of_writable hf hg, beq_iff_eq, beq_iff_eq,
    mk.injEq]

theorem eval_congr {f g : Formula} (htree : f.tree = g.tree) (hrequired : f.required = g.required)
    (b : Bindings) : f.eval b = g.eval b := by
  rw [eval, eval, htree, hrequired]

/-- Compiled formulas are equal if they come from the same text; in particular each is equal to
itself, which a float need not be. Their trees are equal if these have the same text, and then the
formulas require the same variables and evaluate alike. -/
theorem beq_iff_of_compile {limits : Limits} {a b : String} {f g : Formula}
    (hf : (compile limits a).result = .ok f) (hg : (compile limits b).result = .ok g) :
    ((f == g) = true ↔ a = b) ∧ ((f == f) = true ∧ (Number.nan == Number.nan) = false) ∧
    ((f.tree == g.tree) = true ↔ f.text = g.text) ∧
    ((f.tree == g.tree) = true →
      f.required = g.required ∧ ∀ bindings : Bindings, f.eval bindings = g.eval bindings) := by
  obtain ⟨hwf, -⟩ := tokenize_text hf
  obtain ⟨hwg, -⟩ := tokenize_text hg
  have htree := Expr.beq_iff_eq_of_writable hwf hwg
  refine ⟨?_, ⟨(beq_iff_eq_of_writable hwf hwf).mpr rfl, by decide⟩, ?_, fun h => ?_⟩
  · rw [beq_iff_eq_of_writable hwf hwg]
    constructor
    · rintro rfl
      obtain ⟨-, -, -, hsource, -⟩ := exists_tokens_of_compile hf
      obtain ⟨-, -, -, hsource', -⟩ := exists_tokens_of_compile hg
      rw [← hsource, ← hsource']
    · rintro rfl
      rw [hf] at hg
      exact Except.ok.inj hg
  · rw [htree]
    exact ⟨congrArg Expr.text, Expr.text_injective hwf hwg⟩
  · have hsame := htree.mp h
    have hrequired : f.required = g.required := by
      rw [required_eq_names hf, required_eq_names hg, hsame]
    exact ⟨hrequired, eval_congr hsame hrequired⟩

/-- Brackets and spaces that make no difference to the tree make one to the formula. -/
theorem beq_iff_of_compile_sum :
    let tree : Expr := .binary (.variable "x") .add (.variable "y")
    let f : Formula := ⟨"x+y", tree, ["x", "y"]⟩
    let g : Formula := ⟨"(x) + y", tree, ["x", "y"]⟩
    (compile {} "x+y").result = .ok f ∧ (compile {} "(x) + y").result = .ok g ∧
    (f == g) = false ∧ (f == f) = true ∧ (f.tree == g.tree) = true ∧
    ∀ bindings : Bindings, f.eval bindings = g.eval bindings := by
  intro tree f g
  have hf : (compile {} "x+y").result = .ok f := by with_unfolding_all rfl
  have hg : (compile {} "(x) + y").result = .ok g := by with_unfolding_all rfl
  obtain ⟨hsource, ⟨hself, -⟩, htext, hvalue⟩ := beq_iff_of_compile hf hg
  have htree : (f.tree == g.tree) = true := htext.mpr rfl
  refine ⟨hf, hg, ?_, hself, htree, (hvalue htree).2⟩
  rw [Bool.eq_false_iff, ne_eq, hsource]
  decide

end Formulary.Formula
