import Formulary.Proofs.Expr.Climbing

/-!
# The calls of the parser

The parser climbs by calls of `expression` inside of other calls of `expression`. Here they are made
explicit: `Calls` is a state of the parser in the midst of its work, with the calls that wait for
another one on a stack, and `Calls.step` is what the innermost call does next. What can be said of
every moment of a parse, a failing one included, is said of these states: how many calls are active,
how large the counters are, which trees have been built.

A step adds to counters and subtracts from them, and it may begin a call. `Resources` can put bounds
on this, and a step that breaks a bound halts. `Calls.Move` lists what a step can do
(`move_of_step`, `step_eq_ok_iff`). A move makes the state smaller (`Move.measure_lt`), so
`Calls.run` ends, with all of the operations that were folded on the way.

Without bounds the run of a call does what `expression` does, in the same order
(`follows_operand`, `follows_expression`, `follows_operators`): it folds the operations of which
`expression` leaves a record, and comes back with the same tree at the same place, or halts with the
same error (`logged_run_start`, `outcome_run_start`).
-/

namespace Formulary

open Formulary.Parser

/-- Two trees with an operator between them. -/
structure Operation where
  left : Expr
  op : Operator
  right : Expr

namespace Operation

/-- The tree of the operation. -/
def tree (o : Operation) : Expr :=
  .binary o.left o.op o.right

/-- The record that folding leaves. -/
def record (o : Operation) : Event :=
  .folding o.left o.op o.right

end Operation

/-! ## States -/

namespace Calls

/-- A call of `expression` that waits for a call that it has made. -/
inductive Waiting
  /-- Its operand begins with the bracket at `position`, and it waits for what is inside. -/
  | inside (threshold position : Nat)
  /-- It waits for the right side of an operator. -/
  | right (threshold : Nat) (left : Subtree) (op : Operator)

/-- What the innermost call is about to do. -/
inductive Current
  /-- It begins, and reads its operand. -/
  | enter (threshold : Nat)
  /-- It has read `left`, and looks for an operator. -/
  | join (threshold : Nat) (left : Subtree)
  /-- It returns to the call that waits for it. -/
  | leave (s : Subtree)

/-- Why the parser comes to a halt. -/
inductive Halt
  /-- The outermost call returns. -/
  | returned (s : Subtree)
  | refused (e : ParseError)
  | tooManyCalls
  | overflow

/-- What the parser may use. Without a bound it may use as much as it likes. -/
structure Resources where
  /-- How many calls may be active at once. -/
  calls : Option Nat := none
  /-- How large a counter may get. -/
  counter : Option Nat := none

namespace Resources

/-- A sum, if it is not too large for a counter. -/
def add (r : Resources) (a b : Nat) : Except Halt Nat :=
  if r.counter.all (a + b ≤ ·) then .ok (a + b) else .error .overflow

/-- A difference, if it is not negative. -/
def sub (a b : Nat) : Except Halt Nat :=
  if b ≤ a then .ok (a - b) else .error .overflow

/-- The place after the next token. -/
def advance (r : Resources) (c : Cursor) (rest : List Token) : Except Halt Cursor := do
  return ⟨← r.add c.position 1, rest⟩

end Resources

end Calls

/-- The parser between two steps: where it reads, how many brackets are open, and its calls. -/
structure Calls where
  cursor : Cursor
  depth : Nat
  /-- The calls that wait for another one, the innermost first. -/
  waiting : List Calls.Waiting
  current : Calls.Current

namespace Calls

/-- A call of `expression` that no other call waits for. -/
def start (c : Cursor) (depth threshold : Nat) : Calls :=
  ⟨c, depth, [], .enter threshold⟩

/-! ## Steps -/

/-- A call begins. Its operand is a value, or it is in a bracket, and then another call reads what
is inside. -/
def enter (r : Resources) (limits : Limits) (y : Calls) (threshold : Nat) : Except Halt Calls :=
  if r.calls.all (y.waiting.length < ·) then
    match y.cursor.rest with
    | [] => .error (.refused .unexpectedEnd)
    | t :: rest => do
      let c ← r.advance y.cursor rest
      match t with
      | .number x => return { y with cursor := c, current := .join threshold ⟨.number x, 0⟩ }
      | .variable name =>
        return { y with cursor := c, current := .join threshold ⟨.variable name, 0⟩ }
      | .openBracket =>
        if limits.maxDepth ≤ y.depth then
          .error (.refused (.nestingTooDeep limits.maxDepth))
        else do
          let depth ← r.add y.depth 1
          return ⟨c, depth, .inside threshold y.cursor.position :: y.waiting, .enter 0⟩
      | t => .error (.refused (.unexpectedToken .value t y.cursor.position))
  else
    .error .tooManyCalls

/-- A call looks for an operator that binds more strongly than its threshold. The right side of the
operator takes another call. -/
def join (r : Resources) (y : Calls) (threshold : Nat) (left : Subtree) : Except Halt Calls :=
  match y.cursor.rest with
  | .operator op :: rest =>
    if op.precedence ≤ threshold then
      return { y with current := .leave left }
    else do
      let c ← r.advance y.cursor rest
      return { y with
        cursor := c
        waiting := .right threshold left op :: y.waiting
        current := .enter op.precedence }
  | [] | .closeBracket :: _ => return { y with current := .leave left }
  | t :: _ => .error (.refused (.unexpectedToken .operatorOrClose t y.cursor.position))

/-- The call that waits for the right side of its operator gets `s`, and folds. -/
def fold (r : Resources) (limits : Limits) (y : Calls) (threshold : Nat) (left : Subtree)
    (op : Operator) (s : Subtree) (waiting : List Waiting) : Except Halt Calls := do
  let height ← r.add 1 (max left.height s.height)
  if limits.maxHeight < height then
    .error (.refused (.treeTooTall limits.maxHeight))
  else
    return { y with waiting, current := .join threshold ⟨.binary left.tree op s.tree, height⟩ }

/-- The call that waits for what is in the bracket at `position` gets `s`, and reads the closing
bracket. -/
def close (r : Resources) (y : Calls) (threshold position : Nat) (s : Subtree)
    (waiting : List Waiting) : Except Halt Calls := do
  let depth ← Resources.sub y.depth 1
  match y.cursor.rest with
  | [] => .error (.refused (.unclosedBracket position))
  | t :: rest =>
    let c ← r.advance y.cursor rest
    match t with
    | .closeBracket => return ⟨c, depth, waiting, .join threshold s⟩
    | t => do
      let found ← Resources.sub c.position 1
      .error (.refused (.unexpectedToken .closeBracket t found))

/-- A call returns `s` to the call that waits for it. -/
def leave (r : Resources) (limits : Limits) (y : Calls) (s : Subtree) : Except Halt Calls :=
  match y.waiting with
  | [] => .error (.returned s)
  | .right threshold left op :: waiting => y.fold r limits threshold left op s waiting
  | .inside threshold position :: waiting => y.close r threshold position s waiting

/-- What the innermost call does next. -/
def step (r : Resources) (limits : Limits) (y : Calls) : Except Halt Calls :=
  match y.current with
  | .enter threshold => y.enter r limits threshold
  | .join threshold left => y.join r threshold left
  | .leave s => y.leave r limits s

/-- The operation that is folded in the next step. -/
def operation? (y : Calls) : Option Operation :=
  match y.current, y.waiting with
  | .leave s, .right _ left op :: _ => some ⟨left.tree, op, s.tree⟩
  | _, _ => none

/-- What a step that goes on can do. -/
inductive Move (limits : Limits) : Calls → Calls → Prop
  | number {c : Cursor} {rest : List Token} {x : Float} {depth m : Nat} {ws : List Waiting}
      (hc : c.rest = .number x :: rest) :
      Move limits ⟨c, depth, ws, .enter m⟩ ⟨c.advance rest, depth, ws, .join m ⟨.number x, 0⟩⟩
  | variable {c : Cursor} {rest : List Token} {name : String} {depth m : Nat} {ws : List Waiting}
      (hc : c.rest = .variable name :: rest) :
      Move limits ⟨c, depth, ws, .enter m⟩
        ⟨c.advance rest, depth, ws, .join m ⟨.variable name, 0⟩⟩
  | opening {c : Cursor} {rest : List Token} {depth m : Nat} {ws : List Waiting}
      (hc : c.rest = .openBracket :: rest) (hd : depth < limits.maxDepth) :
      Move limits ⟨c, depth, ws, .enter m⟩
        ⟨c.advance rest, depth + 1, .inside m c.position :: ws, .enter 0⟩
  | operator {c : Cursor} {rest : List Token} {op : Operator} {depth m : Nat} {ws : List Waiting}
      {left : Subtree} (hc : c.rest = .operator op :: rest) (hop : m < op.precedence) :
      Move limits ⟨c, depth, ws, .join m left⟩
        ⟨c.advance rest, depth, .right m left op :: ws, .enter op.precedence⟩
  | ending {c : Cursor} {depth m : Nat} {ws : List Waiting} {left : Subtree}
      (hc : Stops m c.rest) :
      Move limits ⟨c, depth, ws, .join m left⟩ ⟨c, depth, ws, .leave left⟩
  | folding {c : Cursor} {op : Operator} {depth m : Nat} {ws : List Waiting} {left s : Subtree}
      (hh : 1 + max left.height s.height ≤ limits.maxHeight) :
      Move limits ⟨c, depth, .right m left op :: ws, .leave s⟩
        ⟨c, depth, ws, .join m ⟨.binary left.tree op s.tree, 1 + max left.height s.height⟩⟩
  | closing {c : Cursor} {rest : List Token} {depth m position : Nat} {ws : List Waiting}
      {s : Subtree} (hc : c.rest = .closeBracket :: rest) :
      Move limits ⟨c, depth + 1, .inside m position :: ws, .leave s⟩
        ⟨c.advance rest, depth, ws, .join m s⟩

section Steps

variable {r : Resources} {limits : Limits} {y y' : Calls}

theorem exists_of_bind_eq_ok {α β : Type} {x : Except Halt α} {f : α → Except Halt β} {b : β}
    (h : (x >>= f) = .ok b) : ∃ a, x = .ok a ∧ f a = .ok b := by
  cases x with
  | error e => cases h
  | ok a => exact ⟨a, rfl, h⟩

theorem eq_of_add {a b n : Nat} (h : r.add a b = .ok n) : n = a + b := by
  unfold Resources.add at h
  split at h <;> cases h
  rfl

theorem eq_of_sub {a b n : Nat} (h : Resources.sub a b = .ok n) : a = n + b := by
  unfold Resources.sub at h
  split at h <;> cases h
  omega

theorem eq_of_advance {c c' : Cursor} {rest : List Token} (h : r.advance c rest = .ok c') :
    c' = c.advance rest := by
  obtain ⟨n, hn, h⟩ := exists_of_bind_eq_ok h
  cases h
  rw [eq_of_add hn]

theorem move_of_enter {c : Cursor} {depth m : Nat} {ws : List Waiting}
    (h : enter r limits ⟨c, depth, ws, .enter m⟩ m = .ok y') :
    Move limits ⟨c, depth, ws, .enter m⟩ y' := by
  unfold enter at h
  split at h
  case isFalse => cases h
  case isTrue =>
    rcases hc : c.rest with _ | ⟨t, rest⟩ <;> simp only [hc] at h
    case nil => cases h
    case cons =>
      obtain ⟨c', hadvance, h⟩ := exists_of_bind_eq_ok h
      obtain rfl := eq_of_advance hadvance
      cases t with
      | number x =>
        cases h
        exact .number hc
      | «variable» name =>
        cases h
        exact .variable hc
      | openBracket =>
        simp only at h
        split at h
        · cases h
        · obtain ⟨depth', hdepth, h⟩ := exists_of_bind_eq_ok h
          obtain rfl := eq_of_add hdepth
          cases h
          exact .opening hc (by omega)
      | operator op => cases h
      | closeBracket => cases h

theorem move_of_join {c : Cursor} {depth m : Nat} {ws : List Waiting} {left : Subtree}
    (h : join r ⟨c, depth, ws, .join m left⟩ m left = .ok y') :
    Move limits ⟨c, depth, ws, .join m left⟩ y' := by
  unfold join at h
  rcases hc : c.rest with _ | ⟨_ | _ | op | _ | _, rest⟩ <;> simp only [hc] at h
  case cons.operator =>
    split at h
    case isTrue hle =>
      cases h
      exact .ending (by rw [hc]; exact hle)
    case isFalse hlt =>
      obtain ⟨c', hadvance, h⟩ := exists_of_bind_eq_ok h
      obtain rfl := eq_of_advance hadvance
      cases h
      exact .operator hc (Nat.lt_of_not_le hlt)
  all_goals cases h
  all_goals exact .ending (by rw [hc]; trivial)

theorem move_of_fold {c : Cursor} {depth m : Nat} {ws ws' : List Waiting} {left s : Subtree}
    {op : Operator} {current : Current}
    (h : fold r limits ⟨c, depth, ws', current⟩ m left op s ws = .ok y') :
    Move limits ⟨c, depth, .right m left op :: ws, .leave s⟩ y' := by
  obtain ⟨height, hheight, h⟩ := exists_of_bind_eq_ok h
  obtain rfl := eq_of_add hheight
  split at h
  case isTrue => cases h
  case isFalse hle =>
    cases h
    exact .folding (Nat.le_of_not_lt hle)

theorem move_of_close {c : Cursor} {depth m position : Nat} {ws ws' : List Waiting} {s : Subtree}
    {current : Current} (h : close r ⟨c, depth, ws', current⟩ m position s ws = .ok y') :
    Move limits ⟨c, depth, .inside m position :: ws, .leave s⟩ y' := by
  obtain ⟨depth', hdepth, hread⟩ := exists_of_bind_eq_ok h
  obtain rfl : depth = depth' + 1 := eq_of_sub hdepth
  rcases hc : c.rest with _ | ⟨t, rest⟩ <;> simp only [hc] at hread
  case nil => cases hread
  case cons =>
    obtain ⟨c', hadvance, hread⟩ := exists_of_bind_eq_ok hread
    obtain rfl := eq_of_advance hadvance
    cases t with
    | closeBracket =>
      cases hread
      exact .closing hc
    | _ =>
      obtain ⟨found, -, hread⟩ := exists_of_bind_eq_ok hread
      cases hread

theorem move_of_leave {c : Cursor} {depth : Nat} {ws : List Waiting} {s : Subtree}
    (h : leave r limits ⟨c, depth, ws, .leave s⟩ s = .ok y') :
    Move limits ⟨c, depth, ws, .leave s⟩ y' := by
  rcases ws with _ | ⟨⟨m, position⟩ | ⟨m, left, op⟩, ws⟩
  case nil => cases h
  case cons.inside => exact move_of_close h
  case cons.right => exact move_of_fold h

/-- Whatever the bounds, a step that goes on is a move. -/
theorem move_of_step (h : y.step r limits = .ok y') : Move limits y y' := by
  obtain ⟨c, depth, ws, current⟩ := y
  cases current with
  | enter m => exact move_of_enter h
  | join m left => exact move_of_join h
  | leave s => exact move_of_leave h

theorem ok_bind {α β : Type} (a : α) (f : α → Except Halt β) : (.ok a >>= f) = f a := rfl

theorem add_unbounded (a b : Nat) : Resources.add {} a b = .ok (a + b) := rfl

theorem sub_succ (a : Nat) : Resources.sub (a + 1) 1 = .ok a := rfl

theorem advance_unbounded (c : Cursor) (rest : List Token) :
    Resources.advance {} c rest = .ok (c.advance rest) := rfl

/-- Without bounds every move is a step. -/
theorem step_eq_ok_iff : y.step {} limits = .ok y' ↔ Move limits y y' := by
  refine ⟨move_of_step, fun h => ?_⟩
  cases h with
  | number hc => simp only [step, enter, hc]; rfl
  | «variable» hc => simp only [step, enter, hc]; rfl
  | opening hc hd =>
    simp only [step, enter, hc, advance_unbounded, ok_bind]
    rw [if_neg (Nat.not_le.mpr hd)]
    rfl
  | operator hc hop =>
    simp only [step, join, hc, advance_unbounded, ok_bind]
    rw [if_neg (Nat.not_le.mpr hop)]
    rfl
  | @ending c _ _ _ _ hstop =>
    simp only [step, join]
    rcases hc : c.rest with _ | ⟨_ | _ | op | _ | _, rest⟩ <;> rw [hc] at hstop
    case cons.operator => exact if_pos hstop
    case nil => rfl
    case cons.closeBracket => rfl
    all_goals exact hstop.elim
  | folding hh =>
    simp only [step, leave, fold, add_unbounded, ok_bind]
    rw [if_neg (Nat.not_lt.mpr hh)]
    rfl
  | closing hc =>
    simp only [step, leave, close, hc, sub_succ, advance_unbounded, ok_bind]
    rfl

end Steps

/-! ## Runs -/

/-- A number that gets smaller with every step. A token that is read counts for more than a call
that begins with it, and a call that waits for more than one that has returned. -/
def measure (y : Calls) : Nat :=
  4 * y.cursor.rest.length + 2 * y.waiting.length +
    match y.current with
    | .enter _ => 2
    | .join .. => 1
    | .leave _ => 0

theorem Move.measure_lt {limits : Limits} {y y' : Calls} (h : Move limits y y') :
    y'.measure < y.measure := by
  cases h <;> simp only [measure, List.length_cons, *] <;> omega

/-- A run to its end: the operations that were folded, oldest first, the state in which it came to a
halt, and why it did. -/
structure Run where
  folded : List Operation
  last : Calls
  halt : Halt

/-- Steps until there is no further one. -/
def run (r : Resources) (limits : Limits) (y : Calls) : Run :=
  match _h : y.step r limits with
  | .error halt => ⟨[], y, halt⟩
  | .ok y' =>
    let later := y'.run r limits
    { later with folded := y.operation?.toList ++ later.folded }
termination_by y.measure
decreasing_by exact (move_of_step ‹_›).measure_lt

section Runs

variable {r : Resources} {limits : Limits} {y y' : Calls}

theorem run_of_error {halt : Halt} (h : y.step r limits = .error halt) :
    y.run r limits = ⟨[], y, halt⟩ := by
  rw [run]
  split
  · rename_i halt' h'
    rw [h] at h'
    cases h'
    rfl
  · rename_i y' h'
    rw [h] at h'
    cases h'

theorem run_of_ok (h : y.step r limits = .ok y') :
    y.run r limits =
      { y'.run r limits with folded := y.operation?.toList ++ (y'.run r limits).folded } := by
  rw [run]
  split
  · rename_i halt' h'
    rw [h] at h'
    cases h'
  · rename_i y' h'
    rw [h] at h'
    cases h'
    rfl

/-- What holds of a state from which there is no step, and of a state if it holds of the next one,
holds of every state. -/
theorem run_induction {P : Calls → Prop} (r : Resources) (limits : Limits)
    (halt : ∀ y halt, y.step r limits = .error halt → P y)
    (step : ∀ y y', y.step r limits = .ok y' → P y' → P y) (y : Calls) : P y := by
  rcases h : y.step r limits with e | y'
  · exact halt y e h
  · exact step y y' h (run_induction r limits halt step y')
termination_by y.measure
decreasing_by exact (move_of_step h).measure_lt

end Runs

/-! ## The run of a call -/

/-- The records that a run leaves, and its outcome. -/
def Run.logged (run : Run) : Logged Halt (Subtree × Calls) where
  events := run.folded.map Operation.record
  result :=
    match run.halt with
    | .returned s => .ok (s, run.last)
    | halt => .error halt

/-- From `y` the machine does what `x` does, and goes on from the state that `next` gives. -/
def Follows {α : Type} (limits : Limits) (x : Logged ParseError α) (y : Calls) (next : α → Calls) :
    Prop :=
  (y.run {} limits).logged = x.mapError .refused >>= fun a => ((next a).run {} limits).logged

namespace Follows

variable {α β : Type} {limits : Limits} {x : Logged ParseError α} {y y' : Calls} {next : α → Calls}

theorem pure {a : α} (h : y = next a) : Follows limits (pure a) y next := by
  subst h
  exact (pure_bind a fun a => ((next a).run {} limits).logged).symm

theorem fail {e : ParseError} (h : y.step {} limits = .error (.refused e)) :
    Follows limits (.fail e) y next := by
  rw [Follows, run_of_error h]
  rfl

theorem bind {f : α → Logged ParseError β} {next' : β → Calls} (h : Follows limits x y next)
    (hf : ∀ a, x.result = .ok a → Follows limits (f a) (next a) next') :
    Follows limits (x >>= f) y next' := by
  rw [Follows, h, Logged.mapError_bind, bind_assoc]
  exact Logged.bind_congr_ok fun a ha => hf a (Logged.result_mapError_eq_ok_iff.mp ha)

/-- A step without a fold leaves no record. -/
theorem step (hm : Move limits y y') (ho : y.operation? = none) (h : Follows limits x y' next) :
    Follows limits x y next := by
  rw [Follows, run_of_ok (step_eq_ok_iff.mpr hm), ho]
  exact h

/-- A call that waits for the right side of an operator folds it, if the tree is not too tall. -/
theorem fold (c : Cursor) (depth m : Nat) (left : Subtree) (op : Operator) (s : Subtree)
    (ws : List Waiting) :
    Follows limits (Parser.fold limits left op s) ⟨c, depth, .right m left op :: ws, .leave s⟩
      fun joined => ⟨c, depth, ws, .join m joined⟩ := by
  unfold Parser.fold
  simp only
  split
  case isTrue hlt =>
    refine fail ?_
    simp only [Calls.step, leave, Calls.fold, add_unbounded, ok_bind]
    rw [if_pos hlt]
  case isFalse hle =>
    rw [Follows, run_of_ok (step_eq_ok_iff.mpr (.folding (Nat.le_of_not_lt hle)))]
    rfl

end Follows

theorem length_lt_of_operand {limits : Limits} {depth : Nat} {c c' : Cursor} {s : Subtree}
    (h : (operand limits depth c).result = .ok (s, c')) : c'.rest.length < c.rest.length := by
  rw [operand, Logged.result_map] at h
  rcases hr : (readOperand limits depth c).result with e | ⟨s', c''⟩ <;> rw [hr] at h <;> cases h
  exact c''.property

theorem length_lt_of_expression {limits : Limits} {depth m : Nat} {c c' : Cursor} {s : Subtree}
    (h : (expression limits depth m c).result = .ok (s, c')) : c'.rest.length < c.rest.length := by
  rw [expression, Logged.result_map] at h
  rcases hr : (readExpression limits depth m c).result with e | ⟨s', c''⟩ <;> rw [hr] at h <;>
    cases h
  exact c''.property

mutual

theorem follows_operand (limits : Limits) (c : Cursor) (depth m : Nat) (ws : List Waiting) :
    Follows limits (operand limits depth c) ⟨c, depth, ws, .enter m⟩
      fun read => ⟨read.2, depth, ws, .join m read.1⟩ := by
  rw [operand_eq]
  rcases hc : c.rest with _ | ⟨_ | _ | _ | _ | _, rest⟩
  case nil => exact .fail (by simp only [step, enter, hc]; rfl)
  case cons.number x => exact .step (.number hc) rfl (.pure rfl)
  case cons.variable name => exact .step (.variable hc) rfl (.pure rfl)
  case cons.operator => exact .fail (by simp only [step, enter, hc]; rfl)
  case cons.closeBracket => exact .fail (by simp only [step, enter, hc]; rfl)
  case cons.openBracket =>
    simp only
    split
    case isTrue hle =>
      refine .fail ?_
      simp only [step, enter, hc, advance_unbounded, ok_bind]
      rw [if_pos hle]
      rfl
    case isFalse hlt =>
      have hlen : rest.length < c.rest.length := by simp [hc]
      -- the call for what is inside runs on top of this one, and comes back to it
      refine .step (.opening hc (Nat.lt_of_not_le hlt)) rfl ?_
      refine (follows_expression limits (c.advance rest) (depth + 1) 0 _).bind ?_
      rintro ⟨inner, c'⟩ -
      rcases hc' : c'.rest with _ | ⟨_ | _ | _ | _ | _, rest'⟩
      case nil => exact .fail (by simp only [step, leave, close, sub_succ, ok_bind, hc'])
      case cons.closeBracket => exact .step (.closing hc') rfl (.pure rfl)
      all_goals
        refine .fail ?_
        simp only [step, leave, close, sub_succ, ok_bind, hc']
        rfl
termination_by 2 * c.rest.length

theorem follows_expression (limits : Limits) (c : Cursor) (depth m : Nat) (ws : List Waiting) :
    Follows limits (expression limits depth m c) ⟨c, depth, ws, .enter m⟩
      fun read => ⟨read.2, depth, ws, .leave read.1⟩ := by
  rw [expression_eq]
  refine (follows_operand limits c depth m ws).bind ?_
  rintro ⟨left, c'⟩ hleft
  have hlen := length_lt_of_operand hleft
  exact follows_operators limits c' depth m left ws
termination_by 2 * c.rest.length + 1

theorem follows_operators (limits : Limits) (c : Cursor) (depth m : Nat) (left : Subtree)
    (ws : List Waiting) :
    Follows limits (operators limits depth m left c) ⟨c, depth, ws, .join m left⟩
      fun read => ⟨read.2, depth, ws, .leave read.1⟩ := by
  rw [operators_eq]
  rcases hc : c.rest with _ | ⟨_ | _ | op | _ | _, rest⟩
  case nil => exact .step (.ending (by rw [hc]; trivial)) rfl (.pure rfl)
  case cons.closeBracket => exact .step (.ending (by rw [hc]; trivial)) rfl (.pure rfl)
  case cons.number => exact .fail (by simp only [step, join, hc])
  case cons.variable => exact .fail (by simp only [step, join, hc])
  case cons.openBracket => exact .fail (by simp only [step, join, hc])
  case cons.operator =>
    simp only
    split
    case isTrue hle => exact .step (.ending (by rw [hc]; exact hle)) rfl (.pure rfl)
    case isFalse hlt =>
      have hlen : rest.length < c.rest.length := by simp [hc]
      refine .step (.operator hc (Nat.lt_of_not_le hlt)) rfl ?_
      refine (follows_expression limits (c.advance rest) depth op.precedence _).bind ?_
      rintro ⟨right, c'⟩ hright
      have hlen' : c'.rest.length < rest.length := length_lt_of_expression hright
      refine (Follows.fold c' depth m left op right ws).bind ?_
      rintro joined -
      exact follows_operators limits c' depth m joined ws
termination_by 2 * c.rest.length

end

/-- A call that no other call waits for does what `expression` does. -/
theorem logged_run_start (limits : Limits) (c : Cursor) (depth m : Nat) :
    ((start c depth m).run {} limits).logged =
      (fun read => (read.1, ⟨read.2, depth, [], .leave read.1⟩)) <$>
        (expression limits depth m c).mapError .refused := by
  have h : ((start c depth m).run {} limits).logged = _ := follows_expression limits c depth m []
  rw [h, map_eq_pure_bind]
  congr 1
  funext ⟨s, c'⟩
  have hreturn : step {} limits ⟨c', depth, [], .leave s⟩ = .error (.returned s) := rfl
  rw [run_of_error hreturn]
  rfl

section Outcomes

variable {limits : Limits} {c c' : Cursor} {depth m : Nat} {s : Subtree}

theorem Run.of_logged_eq_ok {run : Run} {y : Calls} (h : run.logged.result = .ok (s, y)) :
    run.halt = .returned s ∧ run.last = y := by
  obtain ⟨folded, last, halt⟩ := run
  cases halt <;> cases h
  exact ⟨rfl, rfl⟩

theorem Run.of_logged_eq_error {run : Run} {halt : Halt} (h : run.logged.result = .error halt) :
    run.halt = halt := by
  obtain ⟨folded, last, halt'⟩ := run
  cases halt' <;> cases h <;> rfl

/-- The run comes to a halt where `expression` ends, with the same tree or the same error. -/
theorem outcome_run_start (limits : Limits) (c : Cursor) (depth m : Nat) :
    match (expression limits depth m c).result with
    | .ok (s, c') => ((start c depth m).run {} limits).halt = .returned s ∧
        ((start c depth m).run {} limits).last = ⟨c', depth, [], .leave s⟩
    | .error e => ((start c depth m).run {} limits).halt = .refused e := by
  have hlogged := logged_run_start limits c depth m
  rcases he : expression limits depth m c with ⟨events, e | ⟨s, c'⟩⟩ <;> rw [he] at hlogged
  · exact Run.of_logged_eq_error (congrArg Logged.result hlogged)
  · exact Run.of_logged_eq_ok (congrArg Logged.result hlogged)

theorem returned_of_expression (h : (expression limits depth m c).result = .ok (s, c')) :
    ((start c depth m).run {} limits).halt = .returned s := by
  have houtcome := outcome_run_start limits c depth m
  rw [h] at houtcome
  exact houtcome.1

theorem exists_of_returned (h : ((start c depth m).run {} limits).halt = .returned s) :
    ∃ c', (expression limits depth m c).result = .ok (s, c') ∧
      ((start c depth m).run {} limits).last = ⟨c', depth, [], .leave s⟩ := by
  have houtcome := outcome_run_start limits c depth m
  rcases he : (expression limits depth m c).result with e | ⟨s', c'⟩ <;> rw [he] at houtcome
  · rw [houtcome] at h
    cases h
  · obtain ⟨hhalt, hlast⟩ := houtcome
    rw [hhalt] at h
    cases h
    exact ⟨c', rfl, hlast⟩

/-- Without bounds the parser never runs out of anything. -/
theorem halt_ne_overflow (limits : Limits) (c : Cursor) (depth m : Nat) :
    ((start c depth m).run {} limits).halt ≠ .overflow := by
  have houtcome := outcome_run_start limits c depth m
  rcases he : (expression limits depth m c).result with e | ⟨s', c'⟩ <;> rw [he] at houtcome
  · rw [houtcome]
    nofun
  · rw [houtcome.1]
    nofun

end Outcomes

end Calls

end Formulary
