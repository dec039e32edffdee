import Formulary.Proofs.Expr.Substitution
import Formulary.Proofs.Formula.Evaluation

/-!
# The value of a formula with an expression put in

To put an expression in the place of a variable, in brackets, is to give the variable the value of
the expression (`substitution_agrees_with_eval`). The bindings of the new formula serve both old
ones: the expression gets those of its own variables, and the outer formula those of its variables
but for the one that was replaced. The replaced variable may occur in the expression itself; it is
then bound in the new formula, and only the expression sees that value.
-/

namespace Formulary

/-! ## Bindings of some names -/

namespace Bindings

/-- The bindings of the names of a list, without all others. -/
def restrict (b : Bindings) (names : List String) : Bindings :=
  ⟨b.entries.filter fun entry => entry.1 ∈ names, b.nodup.sublist (List.filter_sublist.map _)⟩

variable {b : Bindings} {names : List String} {name : String}

theorem mem_names_restrict : name ∈ (b.restrict names).names ↔ name ∈ b.names ∧ name ∈ names := by
  simp only [Bindings.names, restrict, List.mem_map, List.mem_filter, decide_eq_true_eq]
  grind

theorem value_restrict (h : name ∈ names) : (b.restrict names).value name = b.value name := by
  have hlookup (entries : List (String × Float)) :
      (entries.filter fun entry => entry.1 ∈ names).lookup name = entries.lookup name := by
    induction entries with
    | nil => rfl
    | cons entry entries ih => grind
  rw [value, value, get?, get?, restrict, hlookup]

theorem check_none_eq_ok {required : List String} (h : ∀ name, name ∈ b.names ↔ name ∈ required) :
    b.check required none = .ok () := by
  refine check_eq_ok_iff_names.mpr fun name => ?_
  rw [h name, and_iff_left nofun]

end Bindings

/-! ## Formulas of token lists -/

namespace Formula

/-- The formula has the tree and the variables of a token list. -/
structure Represents (f : Formula) (tokens : List Token) : Prop where
  accepted : ∃ limits, (Expr.parse limits tokens).result = .ok f.tree
  required_eq : f.required = Token.names tokens

namespace Represents

variable {f : Formula} {tokens : List Token}

theorem derives (h : f.Represents tokens) : Grammar.Derives .sum tokens f.tree := by
  obtain ⟨limits, hparse⟩ := h.accepted
  exact (Expr.derives_of_parse hparse).1

theorem required_eq_names (h : f.Represents tokens) : f.required = f.tree.names :=
  h.required_eq.trans h.derives.names_eq

/-- Under bindings of just the variables of the tree, the formula has the value of the tree. -/
theorem eval_eq (h : f.Represents tokens) {b : Bindings}
    (hb : ∀ name, name ∈ b.names ↔ name ∈ f.tree.names) : f.eval b = .ok (f.tree.eval b.value) := by
  rw [← h.required_eq_names] at hb
  exact eval_eq_ok_iff.mpr ⟨Bindings.check_none_eq_ok hb, rfl⟩

end Represents

/-! ## Values after substitution -/

section Values

variable {t u : Expr} {name other : String} {r : Bindings}

/-- The variables of the expression are bound in the new formula. -/
theorem mem_names_restrict_inner (hname : name ∈ t.names)
    (hr : ∀ other, other ∈ r.names ↔ other ∈ (t.substitute name u).names) :
    other ∈ (r.restrict u.names).names ↔ other ∈ u.names := by
  rw [Bindings.mem_names_restrict, hr, Expr.mem_names_substitute]
  exact and_iff_right_of_imp fun ho => .inr ⟨hname, ho⟩

/-- The other variables of the outer formula are bound in the new one. -/
theorem mem_names_restrict_outer (hname : name ∈ t.names)
    (hr : ∀ other, other ∈ r.names ↔ other ∈ (t.substitute name u).names) {x : Float} :
    other ∈ ((r.restrict (t.names.filter (· ≠ name))).insert name x).names ↔ other ∈ t.names := by
  rw [Bindings.names_insert]
  simp only [List.mem_cons, List.mem_filter, Bindings.mem_names_restrict, hr,
    Expr.mem_names_substitute, decide_eq_true_eq]
  by_cases ho : other = name
  · subst ho
    simp [hname]
  · simp only [ho, false_or, ne_eq, not_false_eq_true, and_true]
    exact ⟨And.right, fun h => ⟨.inl h, h⟩⟩

/-- The values that the outer formula reads are those of the new one, and that of the expression. -/
theorem eval_restrict_outer (t u : Expr) (name : String) (r : Bindings) :
    t.eval ((r.restrict (t.names.filter (· ≠ name))).insert name
      (u.eval (r.restrict u.names).value)).value = (t.substitute name u).eval r.value := by
  rw [Expr.eval_substitute]
  refine Expr.eval_congr fun other ho => ?_
  rw [Bindings.value, Bindings.get?_insert]
  split
  case isTrue =>
    rw [Option.getD_some]
    exact Expr.eval_congr fun inner hi => Bindings.value_restrict hi
  case isFalse hne =>
    exact Bindings.value_restrict (List.mem_filter.mpr ⟨ho, decide_eq_true hne⟩)

end Values

/-- When the variable `name` of a formula gives way to an expression in brackets, the tree of the
expression takes its place in the tree, within limits for both. The value is then that of the
formula with `name` bound to the value of the expression, where each of the two has the bindings of
its own variables, and all three formulas accept their bindings. -/
theorem substitution_agrees_with_eval {f g : Formula} {ts us : List Token} (hf : f.Represents ts)
    (hg : g.Represents us) (name : String) :
    (∀ limits : Limits, Token.nesting ts + Token.nesting us + 1 ≤ limits.maxDepth →
      f.tree.height + g.tree.height ≤ limits.maxHeight →
        (Expr.parse limits (Token.substitute ts name us)).result =
          .ok (f.tree.substitute name g.tree)) ∧
    (name ∈ Token.names ts → ∀ h : Formula, h.Represents (Token.substitute ts name us) →
      ∀ r : Bindings, (∀ other, other ∈ r.names ↔ other ∈ h.required) → ∃ x y,
        g.eval (r.restrict g.required) = .ok y ∧
        f.eval ((r.restrict (f.required.filter (· ≠ name))).insert name y) = .ok x ∧
        h.eval r = .ok x) := by
  refine ⟨fun limits hd hh => Expr.parse_substitute hf.derives hg.derives name hd hh, ?_⟩
  intro hname h hh r hr
  have htree : h.tree = f.tree.substitute name g.tree :=
    hh.derives.unique (hf.derives.substitute hg.derives name)
  rw [hf.derives.names_eq] at hname
  rw [hh.required_eq_names, htree] at hr
  rw [hf.required_eq_names, hg.required_eq_names]
  refine ⟨_, _, hg.eval_eq fun other => mem_names_restrict_inner hname hr,
    hf.eval_eq fun other => mem_names_restrict_outer hname hr, ?_⟩
  rw [eval_restrict_outer, ← htree]
  exact hh.eval_eq (by rwa [htree])

/-- In `x*x` the sum `x+1` is put in for `x`, which it mentions itself. -/
theorem substitution_square_agrees :
    let x : Token := .variable "x"
    let sum : List Token := [x, .operator .add, .number 1]
    let square : List Token := [x, .operator .multiply, x]
    let f : Formula := ⟨"x*x", .binary (.variable "x") .multiply (.variable "x"), ["x", "x"]⟩
    let g : Formula := ⟨"x+1", .binary (.variable "x") .add (.number 1), ["x"]⟩
    let h : Formula := ⟨"(x+1)*(x+1)", .binary g.tree .multiply g.tree, ["x", "x"]⟩
    let r := Bindings.ofList [("x", 2)]
    (f.Represents square ∧ g.Represents sum ∧ h.Represents (Token.substitute square "x" sum)) ∧
    (Expr.parse ⟨1, 2⟩ (Token.substitute square "x" sum)).result = .ok h.tree ∧
    ∃ v w, g.eval (r.restrict ["x"]) = .ok w ∧ f.eval ((r.restrict []).insert "x" w) = .ok v ∧
      h.eval r = .ok v := by
  intro x sum square f g h r
  have hf : f.Represents square := ⟨⟨{}, by with_unfolding_all rfl⟩, rfl⟩
  have hg : g.Represents sum := ⟨⟨{}, by with_unfolding_all rfl⟩, rfl⟩
  obtain ⟨hparse, heval⟩ := substitution_agrees_with_eval hf hg "x"
  have hlimits := hparse ⟨1, 2⟩ (by decide) (by decide)
  have hh : h.Represents (Token.substitute square "x" sum) := ⟨⟨⟨1, 2⟩, hlimits⟩, rfl⟩
  have hr (other : String) : other ∈ r.names ↔ other ∈ h.required := by
    show other ∈ ["x"] ↔ other ∈ ["x", "x"]
    simp
  exact ⟨⟨hf, hg, hh⟩, hlimits, heval (List.mem_cons_self ..) h hh r hr⟩

end Formula

end Formulary
