import Formulary.Proofs.Expr.Bounds
import Formulary.Proofs.Expr.Folds
import Formulary.Proofs.Formula.Inorder
import Mathlib.Algebra.Group.Nat.Defs

/-!
# What a call does to the counters

A call of `expression` may begin anywhere in a list, inside of open brackets and above any
threshold. Its position goes up, and it closes all of the brackets that it opens, so its depth ends
where it began. The height that it keeps for a tree is that of the tree, and no more than the number
of operators that were read (`Parser.expression_counters`). On the way no tree is built that is too
tall, and counters of 64 bits never overflow.
-/

namespace Formulary

/-! ## Balanced brackets -/

namespace Token

/-- No closing bracket comes before the opening one that it closes, and every bracket is closed. -/
structure Balanced (ts : List Token) : Prop where
  count_take_le (k : Nat) : (ts.take k).count .closeBracket ≤ (ts.take k).count .openBracket
  count_eq : ts.count .closeBracket = ts.count .openBracket

namespace Balanced

theorem singleton {t : Token} (ho : t ≠ .openBracket) (hc : t ≠ .closeBracket) : Balanced [t] where
  count_take_le k := by
    cases k <;> simp [ho, hc]
  count_eq := by simp [ho, hc]

theorem append {ts us : List Token} (ht : Balanced ts) (hu : Balanced us) :
    Balanced (ts ++ us) where
  count_take_le k := by
    have := ht.count_take_le k
    have := hu.count_take_le (k - ts.length)
    rw [List.take_append, List.count_append, List.count_append]
    omega
  count_eq := by
    rw [List.count_append, List.count_append, ht.count_eq, hu.count_eq]

theorem brackets {ts : List Token} (h : Balanced ts) :
    Balanced (.openBracket :: (ts ++ [.closeBracket])) where
  count_take_le
    | 0 => Nat.le_refl 0
    | k + 1 => by
      have hlast : ([Token.closeBracket].take (k - ts.length)).count .closeBracket ≤ 1 :=
        Nat.le_trans List.count_le_length (List.length_take_le' _ _)
      have := h.count_take_le k
      rw [List.take_succ_cons, List.take_append, List.count_cons_self,
        List.count_cons_of_ne (by decide), List.count_append, List.count_append]
      omega
  count_eq := by
    have := h.count_eq
    have hclose : [Token.closeBracket].count .closeBracket = 1 := List.count_singleton_self ..
    have hopen : [Token.closeBracket].count .openBracket = 0 := rfl
    rw [List.count_cons_self, List.count_cons_of_ne (by decide), List.count_append,
      List.count_append, hclose, hopen]
    omega

end Balanced

end Token

theorem Grammar.Derives.balanced {c : Category} {ts : List Token} {t : Expr}
    (h : Derives c ts t) : Token.Balanced ts := by
  induction h with
  | number x => exact .singleton nofun nofun
  | «variable» name => exact .singleton nofun nofun
  | brackets _ ih => exact ih.brackets
  | operation op _ _ ihl ihr =>
    have hop : Token.Balanced [.operator op] := .singleton nofun nofun
    exact ihl.append (hop.append ihr)
  | ofProduct _ ih | ofPower _ ih | ofAtom _ ih => exact ih

/-- A tree has an operation for each operator of its tokens. -/
theorem Grammar.Derives.length_operations_eq {c : Category} {ts : List Token} {t : Expr}
    (h : Derives c ts t) : t.operations.length = ts.countP Token.isOperator := by
  have hsize := h.size_eq
  rw [t.size_eq_length_operations] at hsize
  omega

/-! ## Calls in the midst of a list -/

namespace Parser

variable {limits : Limits} {tokens : List Token} {position depth m : Nat}

/-- What was read in the midst of a list is what is between the two places. -/
theorem Reads.of_drop {ts : List Token} {c : Cursor}
    (h : Reads ⟨position, tokens.drop position⟩ ts c) (hposition : position ≤ tokens.length) :
    c.position ≤ tokens.length ∧ c.rest = tokens.drop c.position ∧
      (tokens.drop position).take (c.position - position) = ts := by
  have hrest : tokens.drop position = ts ++ c.rest := h.rest
  have hend : c.position = position + ts.length := h.position
  refine ⟨?_, ?_, ?_⟩
  · have hlength := congrArg List.length hrest
    rw [List.length_drop, List.length_append] at hlength
    omega
  · rw [hend, ← List.drop_drop, hrest, List.drop_left]
  · rw [hend, Nat.add_sub_cancel_left, hrest, List.take_left]

/-- Wherever a call of `expression` begins, it comes back with the depth as it was, further on by
tokens whose brackets are balanced, with a tree whose height it knows and which has no more levels
than there were operators. What follows is the end, a closing bracket or an operator that binds no
more strongly than the threshold. Whether the call comes back or not, no tree is ever built that is
too tall, and counters of 64 bits are wide enough for all that it computes. -/
theorem expression_counters (limits : Limits) (tokens : List Token) {position depth : Nat}
    (hposition : position ≤ tokens.length) (hdepth : depth ≤ limits.maxDepth) (m : Nat) :
    let c : Cursor := ⟨position, tokens.drop position⟩
    let run (r : Calls.Resources) := (Calls.start c depth m).run r limits
    (run {}).logged = (fun read => (read.1, ⟨read.2, depth, [], .leave read.1⟩)) <$>
      (expression limits depth m c).mapError .refused ∧
    (∀ s, (run {}).halt = .returned s →
      let last := (run {}).last
      let consumed := (tokens.drop position).take (last.cursor.position - position)
      last.depth = depth ∧ position < last.cursor.position ∧
        last.cursor.position ≤ tokens.length ∧
        last.cursor.rest = tokens.drop last.cursor.position ∧ Token.Balanced consumed ∧
        s.height = s.tree.height ∧ s.height ≤ limits.maxHeight ∧
        s.height ≤ consumed.countP Token.isOperator ∧ Stops m last.cursor.rest) ∧
    (∀ r, ∀ o ∈ (run r).folded, o.tree.height ≤ limits.maxHeight) ∧
    (tokens.length < 2 ^ 64 → limits.maxDepth < 2 ^ 64 →
      let counted := run { counter := some (2 ^ 64 - 1) }
      counted = run {} ∧ counted.halt ≠ .overflow) := by
  intro c run
  refine ⟨Calls.logged_run_start limits c depth m, fun s hhalt => ?_, fun r o ho => ?_,
    fun hsize hlimit => ?_⟩
  · obtain ⟨c', he, hlast⟩ := Calls.exists_of_returned hhalt
    obtain ⟨ts, hreads, hbuilt, hstop⟩ := expression_sound hdepth he
    obtain ⟨hend, hrest, rfl⟩ := hreads.of_drop hposition
    have hnew : position < c'.position := by
      have hlength := List.length_pos_iff.mpr hbuilt.derives.ne_nil
      rw [List.length_take] at hlength
      omega
    have hheight := s.tree.height_le_length_operations
    rw [hbuilt.derives.length_operations_eq, ← hbuilt.height_eq] at hheight
    rw [show (run {}).last = _ from hlast]
    exact ⟨rfl, hnew, hend, hrest, hbuilt.derives.balanced, hbuilt.height_eq,
      hbuilt.height_le, hheight, hstop⟩
  · exact Calls.height_le_of_mem_folded (Calls.sound_start limits c depth m) ho
  · have henough : Calls.Resources.Enough { counter := some (2 ^ 64 - 1) } limits tokens.length :=
      ⟨nofun, fun n hn => by
        obtain rfl := Option.some.inj hn
        omega⟩
    have hbounded := Calls.Bounded.start (c := c) hdepth m
    have hplace : c.position + c.rest.length = tokens.length := by
      show position + (tokens.drop position).length = _
      rw [List.length_drop]
      omega
    rw [hplace] at hbounded
    have hrun : run { counter := some (2 ^ 64 - 1) } = run {} := henough.run_eq hbounded
    exact ⟨hrun, hrun ▸ Calls.halt_ne_overflow limits c depth m⟩

/-- The call inside of the brackets of `2*(x+1)-y`. -/
theorem expression_counters_in_brackets :
    let limits : Limits := {}
    let tokens : List Token := [.number 2, .operator .multiply, .openBracket, .variable "x",
      .operator .add, .number 1, .closeBracket, .operator .subtract, .variable "y"]
    let sum : Expr := .binary (.variable "x") .add (.number 1)
    let run (r : Calls.Resources) := (Calls.start ⟨3, tokens.drop 3⟩ 1 0).run r limits
    3 ≤ tokens.length ∧ 1 ≤ limits.maxDepth ∧ (run {}).halt = .returned ⟨sum, 1⟩ ∧
    (run {}).last.depth = 1 ∧ Stops 0 (run {}).last.cursor.rest ∧
    ⟨.variable "x", .add, .number 1⟩ ∈ (run {}).folded ∧ sum.height ≤ limits.maxHeight ∧
    tokens.length < 2 ^ 64 ∧ limits.maxDepth < 2 ^ 64 ∧
    (run { counter := some (2 ^ 64 - 1) }).halt ≠ .overflow := by
  intro limits tokens sum run
  have hposition : 3 ≤ tokens.length := by decide
  have hdepth : 1 ≤ limits.maxDepth := by decide
  have he : (expression limits 1 0 ⟨3, tokens.drop 3⟩).result =
      .ok (⟨sum, 1⟩, ⟨6, tokens.drop 6⟩) := by cbv
  have hhalt : (run {}).halt = .returned ⟨sum, 1⟩ := Calls.returned_of_expression he
  have hfolded : ⟨.variable "x", .add, .number 1⟩ ∈ (run {}).folded := by
    rw [show (run {}).folded = _ from Calls.folded_eq_operations hhalt]
    exact .head _
  have hsize : tokens.length < 2 ^ 64 := by decide
  have hlimit : limits.maxDepth < 2 ^ 64 := by decide
  obtain ⟨-, hreturn, htrees, hwide⟩ := expression_counters limits tokens hposition hdepth 0
  obtain ⟨hdepth', -, -, -, -, -, -, -, hstop⟩ := hreturn _ hhalt
  exact ⟨hposition, hdepth, hhalt, hdepth', hstop, hfolded, htrees {} _ hfolded, hsize, hlimit,
    (hwide hsize hlimit).2⟩

end Parser

end Formulary
