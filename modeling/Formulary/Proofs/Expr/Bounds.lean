import Formulary.Proofs.Expr.Calls
import Formulary.Proofs.Expr.Yard

/-!
# Bounds on the calls

How many calls are active at once, and how large do the counters get? Calls nest in two ways,
through a bracket and through an operator that binds more strongly than the one before it. At one
depth of brackets the thresholds of the calls rise, and there are no more than four of them, so the
depth bounds the number of calls (`WellStacked.length_lt`). The heights of all trees that are held,
with the operators that wait for a right side, are no more than the tokens that were read
(`Calls.weight`).

All of this is kept by every move (`Bounded.move`), so it holds all along a run that begins with it.
Then no step uses up resources that are large enough, and the run goes as it does without bounds
(`Resources.Enough.run_eq`). In particular a parse takes at most four calls for every depth of
brackets, and there are lists that take so many (`parse_within_calls`).
-/

namespace Formulary

open Formulary.Parser

namespace Calls

/-! ## The stack of calls -/

/-- How many thresholds are above a threshold. -/
def levels (threshold : Nat) : Nat :=
  if threshold < 1 then 3 else if threshold < 11 then 2 else if threshold < 21 then 1 else 0

theorem levels_le (threshold : Nat) : levels threshold ≤ 3 := by
  unfold levels
  split_ifs <;> omega

theorem levels_precedence_lt {threshold : Nat} {op : Operator} (h : threshold < op.precedence) :
    levels op.precedence < levels threshold := by
  have hsum : levels 1 = 2 := rfl
  have hproduct : levels 11 = 1 := rfl
  have hpower : levels 21 = 0 := rfl
  cases op <;> simp only [Operator.precedence, hsum, hproduct, hpower] at h ⊢ <;>
    unfold levels <;> split_ifs <;> omega

/-- The calls that wait for one with the given threshold, inside of `depth` brackets: inside of each
bracket the thresholds begin at `0` and rise from call to call. -/
inductive Stacked (limits : Limits) : Nat → Nat → List Waiting → Prop
  | nil {depth : Nat} (hd : depth ≤ limits.maxDepth) (threshold : Nat) :
      Stacked limits depth threshold []
  | inside {depth m position : Nat} {ws : List Waiting} (h : Stacked limits depth m ws)
      (hd : depth < limits.maxDepth) :
      Stacked limits (depth + 1) 0 (.inside m position :: ws)
  | right {depth m : Nat} {left : Subtree} {op : Operator} {ws : List Waiting}
      (h : Stacked limits depth m ws) (hop : m < op.precedence) :
      Stacked limits depth op.precedence (.right m left op :: ws)

namespace Stacked

variable {limits : Limits} {depth m : Nat} {ws : List Waiting}

theorem depth_le (h : Stacked limits depth m ws) : depth ≤ limits.maxDepth := by
  induction h with
  | nil hd _ => exact hd
  | inside _ hd _ => exact hd
  | right _ _ ih => exact ih

/-- Every depth has room for four calls. -/
theorem length_lt (h : Stacked limits depth m ws) :
    ws.length + levels m < 4 * (depth + 1) := by
  induction h with
  | nil _ threshold =>
    have := levels_le threshold
    rw [List.length_nil]
    omega
  | inside _ _ ih =>
    have hlevels : levels 0 = 3 := rfl
    rw [List.length_cons, hlevels]
    omega
  | right _ hop ih =>
    have := levels_precedence_lt hop
    rw [List.length_cons]
    omega

end Stacked

/-- The calls are stacked, those that wait under the one that is at work. -/
def WellStacked (limits : Limits) (y : Calls) : Prop :=
  match y.current with
  | .enter m | .join m _ => Stacked limits y.depth m y.waiting
  | .leave _ => ∃ m, Stacked limits y.depth m y.waiting

theorem WellStacked.exists_stacked {limits : Limits} {y : Calls} (h : y.WellStacked limits) :
    ∃ m, Stacked limits y.depth m y.waiting := by
  obtain ⟨c, depth, ws, current⟩ := y
  cases current with
  | enter m => exact ⟨m, h⟩
  | join m left => exact ⟨m, h⟩
  | leave s => exact h

/-- The limit on the depth of brackets is one on the calls. -/
theorem WellStacked.length_lt {limits : Limits} {y : Calls} (h : y.WellStacked limits) :
    y.waiting.length < 4 * (limits.maxDepth + 1) := by
  obtain ⟨m, hstack⟩ := h.exists_stacked
  have hlength := hstack.length_lt
  have hdepth := hstack.depth_le
  omega

theorem Move.wellStacked {limits : Limits} {y y' : Calls} (hm : Move limits y y')
    (h : y.WellStacked limits) : y'.WellStacked limits := by
  cases hm with
  | number _ => exact h
  | «variable» _ => exact h
  | opening _ hd => exact .inside h hd
  | operator _ hop => exact .right h hop
  | ending _ => exact ⟨_, h⟩
  | folding _ =>
    obtain ⟨m, h⟩ := h
    cases h with
    | right h _ => exact h
  | closing _ =>
    obtain ⟨m, h⟩ := h
    cases h with
    | inside h _ => exact h

/-! ## The counters -/

/-- The heights that are held by calls that wait, with the operators that they are to add. -/
def Waiting.weight : List Waiting → Nat
  | [] => 0
  | inside .. :: ws => weight ws
  | right _ left _ :: ws => weight ws + left.height + 1

/-- The height that is held by the innermost call. -/
def Current.weight : Current → Nat
  | enter _ => 0
  | join _ left => left.height
  | leave s => s.height

/-- The heights of all trees that are held, with one more for every operator that waits for its
right side. -/
def weight (y : Calls) : Nat :=
  Waiting.weight y.waiting + y.current.weight

/-- What holds of every state when `size` is where the tokens end. -/
structure Bounded (limits : Limits) (size : Nat) (y : Calls) : Prop where
  place : y.cursor.position + y.cursor.rest.length = size
  stacked : y.WellStacked limits
  weight_le : y.weight ≤ y.cursor.position

theorem Move.place {limits : Limits} {y y' : Calls} (hm : Move limits y y') :
    y'.cursor.position + y'.cursor.rest.length = y.cursor.position + y.cursor.rest.length := by
  cases hm <;> simp only [*, List.length_cons] <;> omega

/-- Only an operator adds to the weight, and it is a token that was read. -/
theorem Move.weight_add_le {limits : Limits} {y y' : Calls} (hm : Move limits y y') :
    y'.weight + y.cursor.position ≤ y.weight + y'.cursor.position := by
  cases hm <;> simp only [weight, Waiting.weight, Current.weight] <;> omega

namespace Bounded

variable {limits : Limits} {size : Nat} {y y' : Calls}

theorem start {c : Cursor} {depth : Nat} (hd : depth ≤ limits.maxDepth) (m : Nat) :
    Bounded limits (c.position + c.rest.length) (start c depth m) where
  place := rfl
  stacked := .nil hd m
  weight_le := Nat.zero_le _

theorem move (hm : Move limits y y') (h : Bounded limits size y) : Bounded limits size y' where
  place := by rw [hm.place, h.place]
  stacked := hm.wellStacked h.stacked
  weight_le := by
    have := hm.weight_add_le
    have := h.weight_le
    omega

end Bounded

/-- The resources are enough for any parse that ends at `size`. -/
structure Resources.Enough (r : Resources) (limits : Limits) (size : Nat) : Prop where
  calls : ∀ n ∈ r.calls, 4 * (limits.maxDepth + 1) ≤ n
  counter : ∀ n ∈ r.counter, max size limits.maxDepth ≤ n

namespace Resources.Enough

variable {r : Resources} {limits : Limits} {size : Nat}

theorem add (h : r.Enough limits size) {a b : Nat} (hab : a + b ≤ max size limits.maxDepth) :
    r.add a b = .ok (a + b) := by
  rw [Resources.add, if_pos]
  cases hcounter : r.counter with
  | none => rfl
  | some n => exact decide_eq_true (Nat.le_trans hab (h.counter n hcounter))

theorem advance (h : r.Enough limits size) {c : Cursor} {t : Token} {rest : List Token}
    (hc : c.rest = t :: rest) (hplace : c.position + c.rest.length = size) :
    r.advance c rest = .ok (c.advance rest) := by
  rw [hc, List.length_cons] at hplace
  rw [Resources.advance, h.add (by omega)]
  rfl

theorem room (h : r.Enough limits size) {y : Calls} (hy : y.WellStacked limits) :
    r.calls.all (y.waiting.length < ·) = true := by
  cases hcalls : r.calls with
  | none => rfl
  | some n => exact decide_eq_true (Nat.lt_of_lt_of_le hy.length_lt (h.calls n hcalls))

/-- Resources that are enough are not used up by a step. -/
theorem step_eq (h : r.Enough limits size) {y : Calls} (hy : Bounded limits size y) :
    y.step r limits = y.step {} limits := by
  obtain ⟨c, depth, ws, current⟩ := y
  have hplace : c.position + c.rest.length = size := hy.place
  cases current with
  | enter m =>
    have hstack : Stacked limits depth m ws := hy.stacked
    have hdepth := hstack.depth_le
    have hroom := h.room hy.stacked
    simp only [step, enter]
    rw [if_pos hroom, if_pos (show (({} : Resources).calls.all _) = true from rfl)]
    rcases hc : c.rest with _ | ⟨t, rest⟩
    · rfl
    · simp only [h.advance hc hplace, advance_unbounded, ok_bind]
      cases t with
      | openBracket =>
        simp only
        split
        · rfl
        · rw [h.add (by omega), add_unbounded]
      | _ => rfl
  | join m left =>
    simp only [step, join]
    rcases hc : c.rest with _ | ⟨_ | _ | op | _ | _, rest⟩
    case cons.operator => simp only [h.advance hc hplace, advance_unbounded]
    all_goals rfl
  | leave s =>
    rcases ws with _ | ⟨⟨m, position⟩ | ⟨m, left, op⟩, ws⟩
    case nil => rfl
    case cons.inside =>
      simp only [step, leave, close]
      rcases hc : c.rest with _ | ⟨t, rest⟩
      · rfl
      · simp only [h.advance hc hplace, advance_unbounded]
    case cons.right =>
      -- the call that folds has the weight of both sides and of the operator
      have hweight : _ ≤ c.position := hy.weight_le
      simp only [weight, Waiting.weight, Current.weight] at hweight
      simp only [step, leave, fold]
      rw [h.add (by omega), add_unbounded]

/-- Resources that are enough are not used up by a run. -/
theorem run_eq (h : r.Enough limits size) {y : Calls} (hy : Bounded limits size y) :
    y.run r limits = y.run {} limits := by
  induction y using run_induction r limits with
  | halt y halt hstep =>
    have hstep' : y.step {} limits = .error halt := by rw [← h.step_eq hy, hstep]
    rw [run_of_error hstep, run_of_error hstep']
  | step y y' hstep ih =>
    have hstep' : y.step {} limits = .ok y' := by rw [← h.step_eq hy, hstep]
    rw [run_of_ok hstep, run_of_ok hstep', ih (hy.move (move_of_step hstep))]

end Resources.Enough

/-! ## Whole lists -/

/-- A parse of a whole list with the given resources. -/
def parse (r : Resources) (limits : Limits) (tokens : List Token) : Logged Halt Expr :=
  if tokens.isEmpty then
    .fail (.refused .emptyExpression)
  else do
    let (s, y) ← ((start ⟨0, tokens⟩ 0 0).run r limits).logged
    (whole (s, y.cursor)).mapError .refused

theorem parse_unbounded (limits : Limits) (tokens : List Token) :
    parse {} limits tokens = (readWhole limits tokens).mapError .refused := by
  rw [parse, readWhole]
  split
  case isTrue => rfl
  case isFalse => rw [logged_run_start, bind_map_left, Logged.mapError_bind]

theorem parse_of_enough {r : Resources} {limits : Limits} {tokens : List Token}
    (h : r.Enough limits tokens.length) :
    parse r limits tokens = (readWhole limits tokens).mapError .refused := by
  have hstart := Bounded.start (c := ⟨0, tokens⟩) (Nat.zero_le limits.maxDepth) 0
  rw [Nat.zero_add] at hstart
  rw [← parse_unbounded, parse, parse, h.run_eq hstart]

/-! ## Lists that need every call -/

/-- Three operators, each of which binds more strongly than the one before it. -/
def climb (rest : List Token) : List Token :=
  .variable "x" :: .operator .add :: .variable "x" :: .operator .multiply ::
    .variable "x" :: .operator .power :: rest

/-- Such operators again and again, each time inside of another bracket. -/
def tower : Nat → List Token
  | 0 => climb []
  | k + 1 => climb (.openBracket :: tower k)

section Towers

variable {n : Nat} {limits : Limits}

theorem halt_of_no_room {c : Cursor} {depth m : Nat} {ws : List Waiting} (h : n ≤ ws.length) :
    (run { calls := some n } limits ⟨c, depth, ws, .enter m⟩).halt = .tooManyCalls := by
  have hfull : ¬ Option.all (ws.length < ·) (some n) = true := by
    simpa using h
  have hstep : step { calls := some n } limits ⟨c, depth, ws, .enter m⟩ =
      .error .tooManyCalls := if_neg hfull
  rw [run_of_error hstep]

/-- As long as there is room for another call, a move is a step. -/
theorem halt_of_move {y y' : Calls} (hm : Move limits y y') (h : y.waiting.length < n) :
    (y.run { calls := some n } limits).halt = (y'.run { calls := some n } limits).halt := by
  have hroom : Option.all (y.waiting.length < ·) (some n) = true := decide_eq_true h
  have hstep : y.step { calls := some n } limits = y.step {} limits := by
    rcases y with ⟨c, depth, ws, m | ⟨m, left⟩ | s⟩
    · simp only [step, enter]
      rw [if_pos hroom, if_pos (show Option.all _ none = true from rfl)]
      rfl
    · rfl
    · rfl
  rw [run_of_ok (hstep.trans (step_eq_ok_iff.mpr hm))]

/-- An operand in front of an operator leads to a call for the right side. -/
theorem halt_of_operator {p depth m : Nat} {name : String} {op : Operator} {rest : List Token}
    {ws : List Waiting} (hop : m < op.precedence) (h : ws.length < n) :
    (run { calls := some n } limits
      ⟨⟨p, .variable name :: .operator op :: rest⟩, depth, ws, .enter m⟩).halt =
    (run { calls := some n } limits
      ⟨⟨p + 2, rest⟩, depth, .right m ⟨.variable name, 0⟩ op :: ws,
        .enter op.precedence⟩).halt := by
  rw [halt_of_move (.variable rfl) h, halt_of_move (.operator rfl hop) h]

/-- With three calls that wait for right sides, the fourth one is at work. -/
theorem exists_halt_of_climb (limits : Limits) (rest : List Token) (p depth : Nat)
    {ws : List Waiting} (h : ws.length + 2 < n) :
    ∃ ws', ws'.length = ws.length + 3 ∧
      (run { calls := some n } limits ⟨⟨p, climb rest⟩, depth, ws, .enter 0⟩).halt =
        (run { calls := some n } limits ⟨⟨p + 6, rest⟩, depth, ws', .enter 21⟩).halt := by
  let x : Subtree := ⟨.variable "x", 0⟩
  refine ⟨.right 11 x .power :: .right 1 x .multiply :: .right 0 x .add :: ws, rfl, ?_⟩
  have hadd : ws.length < n := by omega
  have hmultiply : ws.length + 1 < n := by omega
  rw [climb, halt_of_operator (by decide) hadd, halt_of_operator (by decide) hmultiply,
    halt_of_operator (by decide) h]
  rfl

/-- At each depth of brackets a tower takes four calls. -/
theorem halt_of_tower (k p depth : Nat) {ws : List Waiting}
    (hd : depth + k ≤ limits.maxDepth) (hn : n = ws.length + 4 * k + 3) :
    (run { calls := some n } limits ⟨⟨p, tower k⟩, depth, ws, .enter 0⟩).halt =
      .tooManyCalls := by
  induction k generalizing p depth ws with
  | zero =>
    have hroom : ws.length + 2 < n := by omega
    obtain ⟨ws', hws', hclimb⟩ := exists_halt_of_climb limits [] p depth hroom
    rw [tower, hclimb]
    exact halt_of_no_room (by omega)
  | succ k ih =>
    have hroom : ws.length + 2 < n := by omega
    obtain ⟨ws', hws', hclimb⟩ :=
      exists_halt_of_climb limits (.openBracket :: tower k) p depth hroom
    rw [tower, hclimb, halt_of_move (.opening rfl (by omega)) (by rw [hws']; omega)]
    exact ih _ _ (by omega) (by rw [List.length_cons]; omega)

end Towers

theorem parse_tower (limits : Limits) :
    (parse { calls := some (4 * (limits.maxDepth + 1) - 1) } limits
      (tower limits.maxDepth)).result = .error .tooManyCalls := by
  have hne : ¬ (tower limits.maxDepth).isEmpty = true := by
    cases limits.maxDepth <;> nofun
  have hhalt : (run { calls := some (4 * (limits.maxDepth + 1) - 1) } limits
      ⟨⟨0, tower limits.maxDepth⟩, 0, [], .enter 0⟩).halt = .tooManyCalls :=
    halt_of_tower limits.maxDepth 0 0 (by omega) (by rw [List.length_nil]; omega)
  rw [parse, if_neg hne]
  refine Logged.result_bind_error ?_
  simp only [Run.logged, start, hhalt]

/-- With four calls for every depth of brackets, and four outside of all brackets, the parser never
runs out of calls, and finds the same tree or the same error as without a bound. With one call less
there are lists for which it does. -/
theorem parse_within_calls (limits : Limits) :
    (∀ tokens,
      let within := parse { calls := some (4 * (limits.maxDepth + 1)) } limits tokens
      within.result ≠ .error .tooManyCalls ∧
        within.result = (Expr.parse limits tokens).result.mapError .refused) ∧
    ∃ tokens, (parse { calls := some (4 * (limits.maxDepth + 1) - 1) } limits tokens).result =
      .error .tooManyCalls := by
  refine ⟨fun tokens => ?_, _, parse_tower limits⟩
  have henough : Resources.Enough { calls := some (4 * (limits.maxDepth + 1)) } limits
      tokens.length :=
    ⟨fun n hn => Nat.le_of_eq (Option.some.inj hn), nofun⟩
  rw [parse_of_enough henough, Expr.result_parse]
  refine ⟨?_, rfl⟩
  show (readWhole limits tokens).result.mapError _ ≠ _
  cases (readWhole limits tokens).result <;> nofun

/-- Without brackets three calls are one too few for `x+x*x^x`. -/
example : (parse { calls := some 3 } ⟨0, 3⟩ (climb [.variable "x"])).result =
    .error .tooManyCalls := by
  cbv

end Calls

end Formulary
