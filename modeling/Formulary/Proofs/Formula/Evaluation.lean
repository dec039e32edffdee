import Formulary.Proofs.Bindings.Check
import Formulary.Proofs.Formula.Compile
import Formulary.Proofs.Text.Distinct

/-!
# Evaluating formulas

A formula has a value under bindings of exactly the variables of its tree (`eval_ok_iff_names`). The
check looks at the required names, which come from the tokens, and the value comes from the tree;
the two agree because the tree of a compiled formula has the variables of its tokens
(`required_eq_names`). Therefore every look-up on the way to the value finds its name. To say this,
`Expr.eval?` evaluates a tree without a value to fall back on: it fails if a look-up does.
-/

namespace Formulary

/-! ## Evaluation without a fallback -/

namespace Expr

/-- The value of the tree, if all of its variables have one. -/
def eval? (value? : String → Option Float) : Expr → Option Float
  | number x => some x
  | .variable name => value? name
  | binary l op r => do return op.apply (← l.eval? value?) (← r.eval? value?)

/-- If all variables are found, their values are those that count. -/
theorem eval?_eq_some {t : Expr} {value? : String → Option Float} {value : String → Float}
    (h : ∀ name ∈ t.names, value? name = some (value name)) :
    t.eval? value? = some (t.eval value) := by
  induction t with
  | number x => rfl
  | «variable» name => exact h name (List.mem_singleton_self _)
  | binary l op r ihl ihr =>
    have hl := ihl fun name hn => h name (List.mem_append_left _ hn)
    have hr := ihr fun name hn => h name (List.mem_append_right _ hn)
    rw [eval?, hl, hr]
    rfl

/-- The value depends on the variables of the tree alone. -/
theorem eval_congr {t : Expr} {value value' : String → Float}
    (h : ∀ name ∈ t.names, value name = value' name) : t.eval value = t.eval value' := by
  have hvalue : t.eval? (some ∘ value) = some (t.eval value) := eval?_eq_some fun _ _ => rfl
  have hvalue' : t.eval? (some ∘ value) = some (t.eval value') :=
    eval?_eq_some fun name hn => congrArg some (h name hn)
  exact Option.some.inj (hvalue.symm.trans hvalue')

end Expr

theorem Bindings.get?_eq_some_value {b : Bindings} {name : String} (h : name ∈ b.names) :
    b.get? name = some (b.value name) := by
  have hsome : (b.get? name).isSome := by rw [isSome_get?, contains_iff_mem]; exact h
  obtain ⟨x, hx⟩ := Option.isSome_iff_exists.mp hsome
  rw [value, hx, Option.getD_some]

/-- Bindings of the names of a list have as many entries as the list has distinct names. -/
theorem Bindings.length_entries {b : Bindings} {required : List String}
    (h : ∀ name, name ∈ b.names ↔ name ∈ required) :
    b.entries.length = required.eraseDups.length := by
  have hperm : b.names.Perm required.eraseDups := by
    refine (List.perm_ext_iff_of_nodup b.nodup (nodup_eraseDups required)).mpr fun name => ?_
    rw [List.mem_eraseDups]
    exact h name
  rw [← hperm.length_eq, names, List.length_map]

/-! ## The value of a formula -/

namespace Formula

variable {limits : Limits} {source : String} {f : Formula} {b : Bindings} {x : Float}
  {e : BindingError}

theorem required_eq_names (h : (compile limits source).result = .ok f) :
    f.required = f.tree.names := by
  obtain ⟨tokens, -, hparse, -, hreq⟩ := exists_tokens_of_compile h
  rw [hreq, (Expr.derives_of_parse hparse).1.names_eq]

theorem eval_eq_ok_iff :
    f.eval b = .ok x ↔ b.check f.required none = .ok () ∧ f.tree.eval b.value = x := by
  rw [eval]
  rcases b.check f.required none with e | ⟨⟩
  · exact iff_of_false nofun fun h => nomatch h.1
  · exact ⟨fun h => ⟨rfl, Except.ok.inj h⟩, fun h => congrArg Except.ok h.2⟩

theorem eval_eq_error_iff : f.eval b = .error e ↔ b.check f.required none = .error e := by
  rw [eval]
  rcases b.check f.required none with e' | ⟨⟩
  · constructor <;> intro h <;> exact congrArg Except.error (Except.error.inj h)
  · exact iff_of_false nofun nofun

/-- A formula has a value under bindings of just the variables of its tree, each of which it lists
once, in the order in which they first occur. The value is that of the tree with the bound values,
and every look-up finds its name. -/
theorem eval_ok_iff_names (h : (compile limits source).result = .ok f) (b : Bindings) :
    ((∃ x, f.eval b = .ok x) ↔ ∀ name, name ∈ b.names ↔ name ∈ f.tree.names) ∧
    ((∀ name, name ∈ f.distinct ↔ name ∈ f.tree.names) ∧ f.distinct.Nodup ∧
      f.distinct.Pairwise fun first second =>
        f.tree.names.idxOf first < f.tree.names.idxOf second) ∧
    ∀ x, f.eval b = .ok x → b.entries.length = f.distinct.length ∧
      (∀ name ∈ f.tree.names, (b.get? name).isSome) ∧ f.tree.eval? b.get? = some x := by
  have hnames : f.required = f.tree.names := required_eq_names h
  have hok : b.check f.required none = .ok () ↔ ∀ name, name ∈ b.names ↔ name ∈ f.tree.names := by
    rw [Bindings.check_eq_ok_iff, hnames]
    simp only [Bindings.Unknown, reduceCtorEq, false_or, or_false]
    grind
  refine ⟨?_, ⟨?_, ?_, ?_⟩, fun x hx => ?_⟩
  · simp [eval_eq_ok_iff, hok]
  · simp [distinct, hnames, List.mem_eraseDups]
  · exact nodup_eraseDups f.required
  · rw [← hnames]
    exact pairwise_idxOf_eraseDups f.required
  · obtain ⟨hcheck, rfl⟩ := eval_eq_ok_iff.mp hx
    have hsame := hok.mp hcheck
    -- no look-up on the way falls back
    have hget (name : String) (hn : name ∈ f.tree.names) : b.get? name = some (b.value name) :=
      Bindings.get?_eq_some_value ((hsame name).mpr hn)
    refine ⟨?_, fun name hn => by rw [hget name hn]; rfl, Expr.eval?_eq_some hget⟩
    rw [distinct, hnames]
    exact Bindings.length_entries hsame

/-- A name that stands twice in the text is bound once. -/
theorem eval_ok_repeated_name :
    let f : Formula := ⟨"x*x+y",
      .binary (.binary (.variable "x") .multiply (.variable "x")) .add (.variable "y"),
      ["x", "x", "y"]⟩
    let b := Bindings.ofList [("y", 1), ("x", 2)]
    (compile {} "x*x+y").result = .ok f ∧ ∃ x, f.eval b = .ok x ∧ b.entries.length = 2 ∧
      (b.get? "x").isSome ∧ f.tree.eval? b.get? = some x := by
  intro f b
  have hcompile : (compile {} "x*x+y").result = .ok f := by with_unfolding_all rfl
  obtain ⟨hok, -, hvalue⟩ := eval_ok_iff_names hcompile b
  have hnames (name : String) : name ∈ ["x", "y"] ↔ name ∈ ["x", "x", "y"] := by simp
  obtain ⟨x, hx⟩ := hok.mpr hnames
  obtain ⟨hlength, hfound, hx'⟩ := hvalue x hx
  exact ⟨hcompile, x, hx, hlength, hfound "x" (List.mem_cons_self ..), hx'⟩

end Formula

end Formulary
