import Formulary.Proofs.Curve.Agreement
import Formulary.Proofs.Number.Integer

/-!
# The points of a curve

The points of a curve over a range are the values of the formula at the integers of the range, in
order (`sample_agrees_with_eval`). Neighbouring ranges have neighbouring lists of points
(`Curve.points_append`), so the list does not depend on how a range is cut: however often its pieces
are cut again, as long as each cut is made between the ends of the piece (`Split.Within`), the
pieces have the points of the whole range (`Curve.splitPoints_eq`). A range whose start is not below
its stop has no points, and neither have its pieces.

A range may have more integers than there is room for points. Then nothing is evaluated, whether the
range is cut or not (`Curve.sampleSplit_eq`).
-/

namespace Formulary

/-! ## Ranges and their pieces -/

namespace Curve

/-- Every cut is made between the ends of the piece that it divides. -/
def Split.Within (start stop : Int) : Split → Prop
  | .whole => True
  | .cut place left right =>
    (min start stop ≤ place ∧ place ≤ max start stop) ∧ left.Within start place ∧
      right.Within place stop

variable {c : Curve} {start middle stop : Int}

theorem length_points (c : Curve) (start stop : Int) :
    (c.points start stop).length = (stop - start).toNat := by
  rw [points, List.length_map, List.length_range]

theorem eq_point_of_getElem? {k : Nat} {sample : Sample}
    (h : (c.points start stop)[k]? = some sample) : sample = c.point (start + k) := by
  obtain ⟨hk, rfl⟩ := List.getElem?_eq_some_iff.mp h
  simp only [points, List.getElem_map, List.getElem_range]

theorem points_eq_nil (c : Curve) (h : stop ≤ start) : c.points start stop = [] := by
  rw [← List.length_eq_zero_iff, length_points]
  omega

theorem points_append (c : Curve) (h : start ≤ middle) (h' : middle ≤ stop) :
    c.points start middle ++ c.points middle stop = c.points start stop := by
  have hlength : (stop - start).toNat = (middle - start).toNat + (stop - middle).toNat := by omega
  rw [points, points, points, hlength, List.range_add, List.map_append, List.map_map]
  refine congrArg (_ ++ ·) (List.map_congr_left fun k _ => ?_)
  rw [Function.comp_apply]
  congr 1
  omega

/-- The pieces of a range have its points. -/
theorem splitPoints_eq (c : Curve) {split : Split} (h : split.Within start stop) :
    c.splitPoints start stop split = c.points start stop := by
  induction split generalizing start stop with
  | whole => rfl
  | cut place left right ihl ihr =>
    obtain ⟨⟨hmin, hmax⟩, hl, hr⟩ := h
    rw [splitPoints, ihl hl, ihr hr]
    rcases Int.le_total start stop with hle | hle
    · exact c.points_append (by omega) (by omega)
    · rw [c.points_eq_nil hle, c.points_eq_nil (by omega), c.points_eq_nil (by omega)]
      rfl

/-- Halving cuts between the ends, whichever of them is the larger one. -/
theorem within_halving (start stop : Int) (times : Nat) :
    (Split.halving start stop times).Within start stop := by
  induction times generalizing start stop with
  | zero => trivial
  | succ times ih =>
    refine ⟨?_, ih _ _, ih _ _⟩
    omega

/-! ## Room for the points -/

theorem capacity_eq : Sample.capacity = 2 ^ 59 - 1 := by
  decide

theorem reserve_of_lt (h : stop - start < 2 ^ 59) : reserve start stop = .ok () :=
  if_neg (by rw [capacity_eq]; omega)

theorem reserve_of_le (h : 2 ^ 59 ≤ stop - start) : reserve start stop = .error .tooMany :=
  if_pos (by rw [capacity_eq]; omega)

theorem result_sample (c : Curve) (start stop : Int) :
    (c.sample start stop).result = (reserve start stop).map fun _ => c.points start stop := by
  rw [sample, Logged.result_bind_ok (a := ()) rfl, Logged.result_bind]
  show (reserve start stop >>= fun _ => .ok _) = _
  cases reserve start stop <;> rfl

theorem result_sample_of_lt (c : Curve) (h : stop - start < 2 ^ 59) :
    (c.sample start stop).result = .ok (c.points start stop) := by
  rw [result_sample, reserve_of_lt h]
  rfl

theorem result_sample_of_le (c : Curve) (h : 2 ^ 59 ≤ stop - start) :
    (c.sample start stop).result = .error .tooMany := by
  rw [result_sample, reserve_of_le h]
  rfl

/-- It does not matter whether the points over a range are evaluated in one go or in pieces. -/
theorem sampleSplit_eq (c : Curve) {split : Split} (h : split.Within start stop) :
    c.sampleSplit start stop split = (c.sample start stop).result := by
  rw [sampleSplit, result_sample, c.splitPoints_eq h]
  cases reserve start stop <;> rfl

end Curve

/-! ## Points and values -/

namespace Formula

variable {limits : Limits} {source : String} {f : Formula} {argument : String} {fixed : Bindings}
  {c : Curve}

/-- A curve that was made has the values of the formula with the argument bound. -/
theorem eval_eq_value (h : (compile limits source).result = .ok f)
    (hc : (f.curve argument fixed).result = .ok c) (x : Float) :
    f.eval (fixed.withArgument f.tree.names argument x) = .ok (c.value x) := by
  obtain ⟨hcheck, rfl⟩ := curve_eq_ok_iff.mp hc
  -- a bound name that is left free would have been reported
  have hfree : argument ∉ fixed.names := fun ha =>
    (Bindings.check_eq_ok_iff.mp hcheck).2 argument ⟨ha, .inr rfl⟩
  refine eval_eq_ok_iff.mpr ⟨?_, Expr.eval_congr fun name hn => Bindings.value_withArgument hn⟩
  rw [← required_eq_names h, Bindings.check_withArgument hfree, hcheck]

/-- Over a range of integers of sixty-four bits, a curve has one sample for each integer from
`start` up to `stop`, in order, if they are fewer than `2 ^ 59`: over the one float nearest to the
integer, the value of the formula with the argument bound to it, if the formula has the argument.
The samples of a range are those of its two parts, and of its pieces however it is cut. For more
samples there is no room, and then there are none, whether the range is cut or not. -/
theorem sample_agrees_with_eval (h : (compile limits source).result = .ok f)
    (hc : (f.curve argument fixed).result = .ok c) (start stop : Int) (hstart : -2 ^ 63 ≤ start)
    (hstop : stop < 2 ^ 63) :
    (stop - start < 2 ^ 59 →
      ∃ samples, (c.sample start stop).result = .ok samples ∧
        (samples.length : Int) = max 0 (stop - start) ∧
        (∀ (k : Nat) sample, samples[k]? = some sample →
          (∀ x, Number.IsNearest x (start + k) ↔ x = sample.x) ∧
          f.eval (fixed.withArgument f.tree.names argument sample.x) = .ok sample.y) ∧
        (∀ middle, start ≤ middle → middle ≤ stop → ∃ first second,
          (c.sample start middle).result = .ok first ∧ (c.sample middle stop).result = .ok second ∧
            first ++ second = samples) ∧
        ∀ split : Curve.Split, split.Within start stop →
          c.sampleSplit start stop split = .ok samples) ∧
    (2 ^ 59 ≤ stop - start → (c.sample start stop).result = .error .tooMany ∧
      ∀ split : Curve.Split, split.Within start stop →
        c.sampleSplit start stop split = .error .tooMany) := by
  refine ⟨fun hroom => ?room, fun hmany => ?many⟩
  case room =>
    refine ⟨c.points start stop, c.result_sample_of_lt hroom, ?_, fun k sample hk => ?_,
      fun middle hm hm' => ?_, fun split hsplit => ?_⟩
    · rw [c.length_points]
      omega
    · have hlt : k < (stop - start).toNat := by
        rw [← c.length_points]
        exact (List.getElem?_eq_some_iff.mp hk).1
      rw [Curve.eq_point_of_getElem? hk]
      exact ⟨fun x => Number.isNearest_iff (Number.isFinite_ofInt (by omega)), eval_eq_value h hc _⟩
    · exact ⟨_, _, c.result_sample_of_lt (by omega), c.result_sample_of_lt (by omega),
        c.points_append hm hm'⟩
    · rw [c.sampleSplit_eq hsplit, c.result_sample_of_lt hroom]
  case many =>
    refine ⟨c.result_sample_of_le hmany, fun split hsplit => ?_⟩
    rw [c.sampleSplit_eq hsplit, c.result_sample_of_le hmany]

/-- The samples of a line on both sides of the origin, in one range, in two, and in halves. -/
theorem sample_line_agrees :
    let f : Formula := ⟨"k*x", .binary (.variable "k") .multiply (.variable "x"), ["k", "x"]⟩
    let fixed := Bindings.ofList [("k", 2)]
    let c : Curve := ⟨f, "x", fixed⟩
    (compile {} "k*x").result = .ok f ∧ (f.curve "x" fixed).result = .ok c ∧
    ∃ samples, (c.sample (-1) 2).result = .ok samples ∧ (samples.length : Int) = 3 ∧
      (∃ first second, (c.sample (-1) 0).result = .ok first ∧ (c.sample 0 2).result = .ok second ∧
        first ++ second = samples) ∧
      (∃ sample, samples[2]? = some sample ∧ Number.IsNearest sample.x 1 ∧ sample.x = 1 ∧
        f.eval (fixed.withArgument ["k", "x"] "x" sample.x) = .ok sample.y) ∧
      c.sampleSplit (-1) 2 (.halving (-1) 2 2) = .ok samples := by
  intro f fixed c
  have hcompile : (compile {} "k*x").result = .ok f := by with_unfolding_all rfl
  have hcurve : (f.curve "x" fixed).result = .ok c := curve_eq_ok_iff.mpr ⟨rfl, rfl⟩
  obtain ⟨hroom, -⟩ := sample_agrees_with_eval hcompile hcurve (-1) 2 (by decide) (by decide)
  obtain ⟨samples, hsamples, hlength, hpoint, hparts, hpieces⟩ := hroom (by decide)
  have hlast : samples[2]? = some (c.point 1) := by
    rw [c.result_sample_of_lt (by decide)] at hsamples
    cases hsamples
    rfl
  obtain ⟨hnearest, heval⟩ := hpoint 2 _ hlast
  exact ⟨hcompile, hcurve, samples, hsamples, hlength, hparts 0 (by decide) (by decide),
    ⟨_, hlast, (hnearest _).mpr rfl, by decide +kernel, heval⟩,
    hpieces _ (Curve.within_halving _ _ _)⟩

/-- Over all integers of sixty-four bits but the last one, a curve has no samples. -/
theorem no_samples_of_all_integers :
    let f : Formula := ⟨"x", .variable "x", ["x"]⟩
    let fixed := Bindings.ofList []
    let c : Curve := ⟨f, "x", fixed⟩
    (compile {} "x").result = .ok f ∧ (f.curve "x" fixed).result = .ok c ∧
    ¬∃ samples, (c.sample (-2 ^ 63) (2 ^ 63 - 1)).result = .ok samples ∧
      (samples.length : Int) = max 0 (2 ^ 63 - 1 - -2 ^ 63) := by
  intro f fixed c
  refine ⟨by with_unfolding_all rfl, curve_eq_ok_iff.mpr ⟨rfl, rfl⟩, ?_⟩
  rintro ⟨samples, hsamples, -⟩
  rw [c.result_sample_of_le (by decide)] at hsamples
  cases hsamples

end Formula

end Formulary
