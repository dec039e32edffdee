import Formulary.Curve
import Formulary.Proofs.Formula.Evaluation

/-!
# Curves and evaluation

A curve is checked once, when it is made, and evaluated many times after that; a formula is checked
at each evaluation. The two agree (`curve_agrees_with_eval`): to leave a name free in the check of
the fixed values is the same as to bind it when the formula requires it, and to leave it out when
the formula does not (`check_withArgument`). So making a curve fails just if evaluating the formula
does, with the same error, and the values are the same. A name that is already fixed cannot be left
free: the curve is then never made.
-/

namespace Formulary

/-! ## Fixed values and an argument -/

namespace Bindings

/-- The bindings that give `x` to a name if it is required, and otherwise do not bind it. -/
def withArgument (b : Bindings) (required : List String) (argument : String) (x : Float) :
    Bindings :=
  if argument ∈ required then b.insert argument x else b

variable {b : Bindings} {required : List String} {argument name : String}

theorem mem_names_withArgument {x : Float} : name ∈ (b.withArgument required argument x).names ↔
    name = argument ∧ argument ∈ required ∨ name ∈ b.names := by
  unfold withArgument
  split
  case isTrue h =>
    rw [names_insert, List.mem_cons, List.mem_filter, decide_eq_true_eq]
    grind
  case isFalse h => simp [h]

/-- A free name is provided and unknown just like one that is bound if it is required. -/
theorem check_withArgument (hb : argument ∉ b.names) (x : Float) :
    (b.withArgument required argument x).check required none =
      b.check required (some argument) := by
  apply check_congr
  · intro other ho
    rw [mem_names_withArgument]
    by_cases hname : other = argument
    · subst hname
      simp [ho]
    · simp [hname]
  · intro other
    rw [Unknown, Unknown, mem_names_withArgument]
    by_cases hname : other = argument
    · subst hname
      simp [hb]
    · simp [hname]

theorem value_withArgument {x : Float} (h : name ∈ required) :
    (b.withArgument required argument x).value name =
      if name = argument then x else b.value name := by
  unfold withArgument
  split
  case isTrue =>
    rw [value, get?_insert]
    split <;> rfl
  case isFalse ha =>
    rw [if_neg]
    rintro rfl
    exact ha h

end Bindings

/-! ## Making a curve -/

/-- What a curve reads on the way to its value at `x`. -/
def Curve.read? (c : Curve) (x : Float) (name : String) : Option Float :=
  if name = c.argument then some x else c.fixed.get? name

namespace Formula

variable {limits : Limits} {source : String} {f : Formula} {argument : String} {fixed : Bindings}

theorem curve_eq_ok_iff {c : Curve} : (f.curve argument fixed).result = .ok c ↔
    fixed.check f.required (some argument) = .ok () ∧ c = ⟨f, argument, fixed⟩ := by
  rw [curve, Logged.result_bind_eq_ok_iff]
  constructor
  · rintro ⟨⟨⟩, hcheck, h⟩
    cases h
    exact ⟨hcheck, rfl⟩
  · rintro ⟨hcheck, rfl⟩
    exact ⟨(), hcheck, rfl⟩

theorem curve_eq_error_iff {e : BindingError} : (f.curve argument fixed).result = .error e ↔
    fixed.check f.required (some argument) = .error e := by
  rw [curve, Logged.result_bind_eq_error_iff]
  constructor
  · rintro (hcheck | ⟨_, _, h⟩)
    · exact hcheck
    · cases h
  · exact .inl

/-- On the variables of the formula, a curve reads what the bindings with the argument give. -/
theorem read?_eq_some (h : (compile limits source).result = .ok f)
    (hcheck : fixed.check f.required (some argument) = .ok ()) (x : Float) {name : String}
    (hn : name ∈ f.tree.names) : (⟨f, argument, fixed⟩ : Curve).read? x name =
      some ((fixed.withArgument f.tree.names argument x).value name) := by
  rw [Bindings.value_withArgument hn, Curve.read?]
  split
  case isTrue => rfl
  case isFalse hne =>
    rw [← required_eq_names h] at hn
    obtain ⟨hprovided, -⟩ := Bindings.check_eq_ok_iff.mp hcheck
    have hfree : some name ≠ some argument := by simpa using hne
    exact Bindings.get?_eq_some_value ((hprovided name hn).resolve_left hfree)

/-- To make a curve and evaluate it is to evaluate the formula with its argument bound, if the
formula has it, and not bound, if it has not: the same errors and the same values, where all
look-ups of the curve find their names. A fixed name cannot be the argument: what is reported then
is the first missing name or else the least of the unknown ones, to which the argument counts. -/
theorem curve_agrees_with_eval (h : (compile limits source).result = .ok f) (argument : String)
    (fixed : Bindings) :
    (argument ∉ fixed.names → ∀ x,
      let b := fixed.withArgument f.tree.names argument x
      (∀ e, (f.curve argument fixed).result = .error e ↔ f.eval b = .error e) ∧
      ∀ c, (f.curve argument fixed).result = .ok c →
        f.eval b = .ok (c.value x) ∧ c.formula.tree.eval? (c.read? x) = some (c.value x) ∧
          (argument ∉ f.tree.names → ∀ y, c.value y = c.value x)) ∧
    (argument ∈ fixed.names →
      (∀ name, fixed.FirstMissing f.required (some argument) name →
        (f.curve argument fixed).result = .error (.missingVariable name)) ∧
      ((∀ name, ¬ fixed.FirstMissing f.required (some argument) name) →
        ∃ name, (f.curve argument fixed).result = .error (.unknownVariable name) ∧
          (name = argument ∨ name ∈ fixed.names ∧ name ∉ f.required) ∧
          ∀ other, other = argument ∨ other ∈ fixed.names ∧ other ∉ f.required →
            name ≤ other)) := by
  constructor
  · intro ha x b
    have hcheck : b.check f.required none = fixed.check f.required (some argument) := by
      rw [required_eq_names h]
      exact Bindings.check_withArgument ha x
    refine ⟨fun e => by rw [curve_eq_error_iff, eval_eq_error_iff, hcheck], fun c hc => ?_⟩
    obtain ⟨hok, rfl⟩ := curve_eq_ok_iff.mp hc
    have hvalue : (⟨f, argument, fixed⟩ : Curve).value x = f.tree.eval b.value :=
      Expr.eval_congr fun name hn => (Bindings.value_withArgument hn).symm
    refine ⟨?_, ?_, fun hconst y => Expr.eval_congr fun name hn => ?_⟩
    · rw [hvalue, eval_eq_ok_iff]
      exact ⟨hcheck.trans hok, rfl⟩
    · rw [hvalue]
      exact Expr.eval?_eq_some fun name hn => read?_eq_some h hok x hn
    · have hne : name ≠ argument := fun heq => hconst (heq ▸ hn)
      rw [if_neg hne, if_neg hne]
  · intro ha
    simp only [curve_eq_error_iff]
    refine ⟨fun name hname => Bindings.check_of_firstMissing hname, fun hnone => ?_⟩
    have hbound : ∀ other ∈ f.required, some other = some argument ∨ other ∈ fixed.names := by
      rw [← Bindings.missing?_eq_none_iff, Option.eq_none_iff_forall_ne_some]
      exact fun name hname => hnone name (Bindings.missing?_eq_some_iff.mp hname)
    have hunknown (name : String) : fixed.Unknown f.required (some argument) name ↔
        name = argument ∨ name ∈ fixed.names ∧ name ∉ f.required := by
      rw [Bindings.Unknown, Option.some.injEq]
      grind
    simp only [← hunknown]
    -- the argument itself is unknown here, so there is a least unknown name
    obtain ⟨name, hname⟩ : ∃ name, fixed.unknown? f.required (some argument) = some name := by
      rw [← Option.ne_none_iff_exists', Ne, Bindings.unknown?_eq_none_iff]
      exact fun hall => hall argument ⟨ha, .inr rfl⟩
    obtain ⟨hknown, hle⟩ := Bindings.unknown?_eq_some_iff.mp hname
    exact ⟨name, Bindings.check_of_unknown hbound hknown hle, hknown, hle⟩

/-- A line through the origin; its slope as the argument while it is fixed and `x` is not; and `x`
as the argument while it is fixed. -/
theorem curve_line_agrees :
    let f : Formula := ⟨"k*x", .binary (.variable "k") .multiply (.variable "x"), ["k", "x"]⟩
    let fixed := Bindings.ofList [("k", 2)]
    (compile {} "k*x").result = .ok f ∧
    (∃ c, (f.curve "x" fixed).result = .ok c ∧
      f.eval (fixed.withArgument ["k", "x"] "x" 3) = .ok (c.value 3) ∧
      c.formula.tree.eval? (c.read? 3) = some (c.value 3)) ∧
    (f.curve "k" fixed).result = .error (.missingVariable "x") ∧
    (f.curve "x" (fixed.insert "x" 3)).result = .error (.unknownVariable "x") := by
  intro f fixed
  have hcompile : (compile {} "k*x").result = .ok f := by with_unfolding_all rfl
  refine ⟨hcompile, ?_, ?_, ?_⟩
  · obtain ⟨hfree, -⟩ := curve_agrees_with_eval hcompile "x" fixed
    have hcurve : (f.curve "x" fixed).result = .ok ⟨f, "x", fixed⟩ :=
      curve_eq_ok_iff.mpr ⟨rfl, rfl⟩
    obtain ⟨heval, hread, -⟩ := (hfree (by decide) 3).2 _ hcurve
    exact ⟨_, hcurve, heval, hread⟩
  · obtain ⟨-, hfixed⟩ := curve_agrees_with_eval hcompile "k" fixed
    exact (hfixed (by decide)).1 "x" ⟨["k"], [], rfl, by decide, by decide, by decide⟩
  · obtain ⟨-, hfixed⟩ := curve_agrees_with_eval hcompile "x" (fixed.insert "x" 3)
    have hnone : (fixed.insert "x" 3).missing? f.required (some "x") = none := rfl
    obtain ⟨name, hresult, hname, -⟩ := (hfixed (by decide)).2 fun name hname => by
      rw [Bindings.missing?_eq_some_iff.mpr hname] at hnone
      cases hnone
    have hrequired : name ∈ (fixed.insert "x" 3).names → name ∈ f.required := by
      intro hn
      have hn : name ∈ ["x", "k"] := hn
      show name ∈ ["k", "x"]
      simpa [or_comm] using hn
    rwa [hname.resolve_right fun h => h.2 (hrequired h.1)] at hresult

end Formula

end Formulary
