import Formulary.Expr.Order
import Formulary.Proofs.Expr.Climbing

/-!
# The operator yard

Another way to parse, without recursion: a machine reads the tokens one by one and keeps the values
that are complete on one stack and the operators whose right sides are still to come on another.
`Yard.step` reads a token, `Yard.finish` the end, and `Yard.run` a whole list. Every open bracket
has a frame of operators of its own. An operator first folds those of its frame that bind at least
as strongly, a closing bracket and the end fold the frame as a whole.

The parser by precedence keeps these stacks in its calls. When it has read a tree, the machine has
read the same tokens and holds the tree as its last operand (`runFrom_eq_operand`,
`runFrom_eq_expression`, `runFrom_eq_operators`). An operator that waits in the frame is one whose
right side the parser is reading, and where that call ends, the machine folds the operator
(`runFrom_push_of_stops`). So the two find the same tree or the same error, with the same folds
before it (`Expr.parse_eq_run`).
-/

namespace Formulary

open Formulary.Parser

/-! ## The machine -/

/-- What the machine waits for. -/
inductive Yard.Phase
  | value
  | operator
deriving DecidableEq

/-- An open bracket: its place, and the operators in front of it that wait for its value. -/
structure Yard.Frame where
  position : Nat
  operators : List Operator

/-- The state of the machine. In all of the stacks the last entry comes first. -/
structure Yard where
  phase : Yard.Phase
  /-- The trees that are complete. -/
  operands : List Expr
  /-- The operators since the innermost open bracket that are not folded yet. -/
  operators : List Operator
  /-- The open brackets. -/
  opened : List Yard.Frame
  /-- The values as they were read and the operators as they were folded, oldest first. -/
  written : List Token

namespace Yard

/-- The machine before the first token. -/
def start : Yard :=
  ⟨.value, [], [], [], []⟩

/-- Takes a complete tree as an operand. -/
def push (y : Yard) (t : Expr) : Yard :=
  { y with phase := .operator, operands := t :: y.operands, written := y.written ++ t.postorder }

/-- Takes an operator, whose right side is due then. -/
def pushOperator (y : Yard) (op : Operator) : Yard :=
  { y with phase := .value, operators := op :: y.operators }

/-- Begins a frame for the bracket at `position`. -/
def openFrame (y : Yard) (position : Nat) : Yard :=
  { y with operators := [], opened := ⟨position, y.operators⟩ :: y.opened }

/-- Joins the last two operands by the last operator of the frame. -/
def fold (limits : Limits) (y : Yard) : Logged ParseError Yard :=
  match y.operators, y.operands with
  | op :: operators, r :: l :: operands =>
    let t := Expr.binary l op r
    if limits.maxHeight < t.height then
      .fail (.treeTooTall limits.maxHeight)
    else do
      .emit (.folding l op r)
      return { y with operators, operands := t :: operands, written := y.written ++ [.operator op] }
  | _, _ => return y

/-- Folds the last operators of the frame, as long as they bind at least as strongly as
`precedence`. -/
def reduce (limits : Limits) (precedence : Nat) (y : Yard) : Logged ParseError Yard :=
  (y.operators.takeWhile (precedence ≤ ·.precedence)).foldlM (fun y _ => y.fold limits) y

/-- Goes back to the frame around the innermost open bracket. -/
def closeFrame (y : Yard) (position : Nat) : Logged ParseError Yard :=
  match y.opened with
  | [] => .fail (.unmatchedBracket position)
  | frame :: opened => return { y with operators := frame.operators, opened }

/-- Reads the token at `position`. -/
def step (limits : Limits) (y : Yard) (position : Nat) (t : Token) : Logged ParseError Yard :=
  match y.phase, t with
  | .value, .number x => return y.push (.number x)
  | .value, .variable name => return y.push (.variable name)
  | .value, .openBracket =>
    if limits.maxDepth ≤ y.opened.length then
      .fail (.nestingTooDeep limits.maxDepth)
    else
      return y.openFrame position
  | .value, t => .fail (.unexpectedToken .value t position)
  | .operator, .operator op => do return (← y.reduce limits op.precedence).pushOperator op
  | .operator, .closeBracket => do (← y.reduce limits 0).closeFrame position
  | .operator, t => .fail (.unexpectedToken .operatorOrClose t position)

/-- Reads the end of the tokens. -/
def finish (limits : Limits) (y : Yard) : Logged ParseError Yard :=
  match y.phase with
  | .value => .fail .unexpectedEnd
  | .operator => do
    let y ← y.reduce limits 0
    match y.opened with
    | [] => return y
    | frame :: _ => .fail (.unclosedBracket frame.position)

/-- Reads tokens up to the end, the first of them at `position`. -/
def runFrom (limits : Limits) (y : Yard) (position : Nat) : List Token → Logged ParseError Yard
  | [] => y.finish limits
  | t :: ts => do (← y.step limits position t).runFrom limits (position + 1) ts

/-- Reads a token list. -/
def run (limits : Limits) (tokens : List Token) : Logged ParseError Yard :=
  if tokens.isEmpty then
    .fail .emptyExpression
  else
    start.runFrom limits 0 tokens

variable {limits : Limits} {y : Yard} {precedence : Nat}

theorem push_inj {t t' : Expr} (h : y.push t = y.push t') : t = t' :=
  List.head_eq_of_cons_eq (congrArg operands h)

/-! ## Folds -/

theorem reduce_of_head (h : ∀ op ∈ y.operators.head?, op.precedence < precedence) :
    y.reduce limits precedence = pure y := by
  rw [reduce]
  rcases hops : y.operators with _ | ⟨op, operators⟩
  · rfl
  · rw [hops] at h
    have hop : ¬ precedence ≤ op.precedence := Nat.not_le.mpr (h op rfl)
    rw [List.takeWhile_cons_of_neg (by simpa using hop)]
    rfl

/-- With the right side of an operator as the last operand, the operator is folded before anything
that binds no more strongly. -/
theorem reduce_push {left right : Subtree} {op : Operator} (h : precedence ≤ op.precedence)
    (hleft : left.height = left.tree.height) (hright : right.height = right.tree.height) :
    (((y.push left.tree).pushOperator op).push right.tree).reduce limits precedence =
      Parser.fold limits left op right >>= fun joined =>
        (y.push joined.tree).reduce limits precedence := by
  have hfold : (((y.push left.tree).pushOperator op).push right.tree).fold limits =
      Parser.fold limits left op right >>= fun joined => pure (y.push joined.tree) := by
    simp only [fold, push, pushOperator, Parser.fold, Expr.height, hleft, hright,
      List.append_assoc]
    split
    · rfl
    · simp [Expr.postorder]
  have hops : (((y.push left.tree).pushOperator op).push right.tree).operators =
      op :: y.operators := rfl
  rw [reduce, hops, List.takeWhile_cons_of_pos (by simpa using h), List.foldlM_cons, hfold,
    bind_assoc]
  simp only [pure_bind]
  rfl

/-! ## What the machine does with an operand -/

theorem step_push_operator (t : Expr) (position : Nat) (op : Operator) :
    (y.push t).step limits position (.operator op) =
      (y.push t).reduce limits op.precedence >>= fun y' => pure (y'.pushOperator op) := rfl

theorem step_push_closeBracket (t : Expr) (position : Nat) :
    (y.push t).step limits position .closeBracket =
      (y.push t).reduce limits 0 >>= fun y' => y'.closeFrame position := rfl

theorem finish_push (t : Expr) : (y.push t).finish limits =
    (y.push t).reduce limits 0 >>= fun y' =>
      match y'.opened with
      | [] => pure y'
      | frame :: _ => .fail (.unclosedBracket frame.position) := rfl

/-- What may follow the right side of an operator makes the machine fold the operator. -/
theorem runFrom_push_of_stops {left right : Subtree} {op : Operator} {c : Cursor}
    (hstop : Stops op.precedence c.rest) (hleft : left.height = left.tree.height)
    (hright : right.height = right.tree.height) :
    (((y.push left.tree).pushOperator op).push right.tree).runFrom limits c.position c.rest =
      Parser.fold limits left op right >>= fun joined =>
        (y.push joined.tree).runFrom limits c.position c.rest := by
  obtain ⟨position, rest⟩ := c
  rcases rest with _ | ⟨_ | _ | op' | _ | _, rest⟩
  case nil =>
    simp only [runFrom, finish_push, reduce_push (Nat.zero_le _) hleft hright, bind_assoc]
  case cons.closeBracket =>
    simp only [runFrom, step_push_closeBracket, reduce_push (Nat.zero_le _) hleft hright,
      bind_assoc]
  case cons.operator =>
    have hle : op'.precedence ≤ op.precedence := hstop
    simp only [runFrom, step_push_operator, reduce_push hle hleft hright, bind_assoc]
  all_goals exact hstop.elim

/-- The machine goes on from where the parser has read a tree. -/
def resume (limits : Limits) (y : Yard) (read : Subtree × Cursor) : Logged ParseError Yard :=
  (y.push read.1.tree).runFrom limits read.2.position read.2.rest

end Yard

/-! ## The machine and the parser -/

namespace Parser

theorem height_of_fold {limits : Limits} {left right joined : Subtree} {op : Operator}
    (h : (fold limits left op right).result = .ok joined)
    (hleft : left.height = left.tree.height) (hright : right.height = right.tree.height) :
    joined.height = joined.tree.height := by
  obtain ⟨-, rfl⟩ := fold_eq_ok_iff.mp h
  rw [Expr.height, hleft, hright]

mutual

-- the threshold of an expression is the precedence of the last operator of the frame, so that what
-- the parser joins to the expression is what the machine takes before it folds that operator

theorem runFrom_eq_operand {limits : Limits} {y : Yard} (hv : y.phase = .value) (c : Cursor) :
    y.runFrom limits c.position c.rest =
      operand limits y.opened.length c >>= y.resume limits := by
  rw [operand_eq]
  rcases hc : c.rest with _ | ⟨_ | _ | _ | _ | _, rest⟩
  case cons.openBracket =>
    simp only [Yard.runFrom, Yard.step, hv]
    split
    case isTrue => rfl
    case isFalse hlt =>
      have hlt := Nat.lt_of_not_le hlt
      have hlen : rest.length < c.rest.length := (Reads.advance hc).length_lt (by simp)
      rw [pure_bind, bind_assoc]
      have hinside := runFrom_eq_expression (y := y.openFrame c.position) (m := 0) hlt hv nofun
        (c.advance rest)
      refine hinside.trans (Logged.bind_congr_ok ?_)
      rintro ⟨inner, c₁⟩ he
      obtain ⟨-, -, -, hstop⟩ := expression_sound hlt he
      rcases hstop.eq_nil_or_closeBracket with hc₁ | ⟨rest', hc₁⟩
      · simp only [Yard.resume, hc₁]
        rfl
      · simp only [Yard.resume, hc₁]
        rfl
  all_goals
    simp only [Yard.runFrom, Yard.step, Yard.finish, hv]
    rfl
termination_by 2 * c.rest.length

theorem runFrom_eq_expression {limits : Limits} {y : Yard} {m : Nat}
    (hd : y.opened.length ≤ limits.maxDepth) (hv : y.phase = .value)
    (hm : ∀ op ∈ y.operators.head?, op.precedence ≤ m) (c : Cursor) :
    y.runFrom limits c.position c.rest =
      expression limits y.opened.length m c >>= y.resume limits := by
  rw [expression_eq, bind_assoc, runFrom_eq_operand hv c]
  refine Logged.bind_congr_ok ?_
  rintro ⟨left, c₁⟩ ho
  obtain ⟨ls, hr, hb⟩ := operand_sound hd ho
  have hlen := hr.length_lt hb.derives.ne_nil
  exact runFrom_eq_operators hd hm hb.height_eq c₁
termination_by 2 * c.rest.length + 1

theorem runFrom_eq_operators {limits : Limits} {y : Yard} {m : Nat} {left : Subtree}
    (hd : y.opened.length ≤ limits.maxDepth)
    (hm : ∀ op ∈ y.operators.head?, op.precedence ≤ m) (hleft : left.height = left.tree.height)
    (c : Cursor) :
    (y.push left.tree).runFrom limits c.position c.rest =
      operators limits y.opened.length m left c >>= y.resume limits := by
  rw [operators_eq]
  rcases hc : c.rest with _ | ⟨_ | _ | op | _ | _, rest⟩
  case cons.operator =>
    simp only
    split
    case isTrue =>
      rw [pure_bind, Yard.resume, hc]
    case isFalse hlt =>
      have hlt := Nat.lt_of_not_le hlt
      have hlen : rest.length < c.rest.length := (Reads.advance hc).length_lt (by simp)
      -- no operator of the frame binds as strongly as `op`, which is taken without a fold
      have hreduce : (y.push left.tree).reduce limits op.precedence = pure (y.push left.tree) :=
        Yard.reduce_of_head fun op' hop' => Nat.lt_of_le_of_lt (hm op' hop') hlt
      have hright := runFrom_eq_expression (y := (y.push left.tree).pushOperator op)
        (m := op.precedence) hd rfl
        (fun op' hop' => Nat.le_of_eq (congrArg _ (Option.some.inj hop').symm)) (c.advance rest)
      rw [Yard.runFrom, Yard.step_push_operator, hreduce, pure_bind, pure_bind, bind_assoc]
      refine hright.trans (Logged.bind_congr_ok ?_)
      rintro ⟨right, c₁⟩ he
      obtain ⟨rs, hr, hb, hstop⟩ := expression_sound hd he
      have hlen' : c₁.rest.length < rest.length := hr.length_lt hb.derives.ne_nil
      -- the right side is complete, so `op` is folded before anything else is read
      rw [bind_assoc, Yard.resume, Yard.runFrom_push_of_stops hstop hleft hb.height_eq]
      refine Logged.bind_congr_ok fun joined hjoined => ?_
      exact runFrom_eq_operators hd hm (height_of_fold hjoined hleft hb.height_eq) c₁
  case nil => rw [pure_bind, Yard.resume, hc]
  case cons.closeBracket => rw [pure_bind, Yard.resume, hc]
  all_goals rfl
termination_by 2 * c.rest.length

end

end Parser

/-- The tree that was read, if it ends with the tokens. -/
def Parser.whole (read : Subtree × Cursor) : Logged ParseError Expr :=
  match read.2.rest with
  | [] => return read.1.tree
  | .closeBracket :: _ => .fail (.unmatchedBracket read.2.position)
  | t :: _ => .fail (.unexpectedToken .endOfExpression t read.2.position)

/-- The tree of a whole list, without the records with which a parse begins and ends. -/
def Parser.readWhole (limits : Limits) (tokens : List Token) : Logged ParseError Expr :=
  if tokens.isEmpty then
    .fail .emptyExpression
  else
    expression limits 0 0 ⟨0, tokens⟩ >>= whole

namespace Expr

theorem parse_eq_readWhole (limits : Limits) (tokens : List Token) : parse limits tokens = (do
    .emit (.parsing tokens.length)
    let t ← readWhole limits tokens
    .emit (.parsed t)
    return t) := by
  rw [parse, readWhole]
  split
  case isTrue => rfl
  case isFalse =>
    congr 1
    funext _
    rw [bind_assoc]
    congr 1
    funext read
    obtain ⟨built, position, rest⟩ := read
    rcases rest with _ | ⟨_ | _ | _ | _ | _, rest⟩ <;> rfl

theorem result_parse (limits : Limits) (tokens : List Token) :
    (parse limits tokens).result = (readWhole limits tokens).result := by
  rw [parse_eq_readWhole, Logged.result_bind_ok (a := ()) rfl, Logged.result_bind]
  cases (readWhole limits tokens).result <;> rfl

/-- A parse leaves a record at its beginning, and one at its end if there is a tree. -/
theorem events_parse (limits : Limits) (tokens : List Token) :
    (parse limits tokens).events = .parsing tokens.length :: ((readWhole limits tokens).events ++
      match (parse limits tokens).result with
      | .ok t => [.parsed t]
      | .error _ => []) := by
  rw [result_parse, parse_eq_readWhole, Logged.events_bind_ok (a := ()) rfl]
  refine congrArg (_ :: ·) ?_
  cases hresult : (readWhole limits tokens).result with
  | ok t =>
    rw [Logged.events_bind_ok hresult]
    rfl
  | error e =>
    rw [Logged.events_bind_error hresult]
    exact (List.append_nil _).symm

end Expr

namespace Yard

/-- The machine holds the tree of the parser at its end, and folds when the parser does. -/
theorem run_eq_map (limits : Limits) (tokens : List Token) :
    run limits tokens = start.push <$> readWhole limits tokens := by
  rw [run, readWhole]
  split
  case isTrue => rfl
  case isFalse =>
    have hrun : start.runFrom limits 0 tokens =
        Parser.expression limits 0 0 ⟨0, tokens⟩ >>= start.resume limits :=
      Parser.runFrom_eq_expression (Nat.zero_le _) rfl (by simp [start]) ⟨0, tokens⟩
    rw [hrun, map_bind]
    refine Logged.bind_congr_ok ?_
    rintro ⟨built, c⟩ he
    obtain ⟨-, -, -, hstop⟩ := Parser.expression_sound (Nat.zero_le _) he
    rcases hstop.eq_nil_or_closeBracket with hc | ⟨rest, hc⟩
    · simp only [resume, Parser.whole, hc]
      rfl
    · simp only [resume, Parser.whole, hc]
      rfl

theorem result_run (limits : Limits) (tokens : List Token) :
    (run limits tokens).result = (Expr.parse limits tokens).result.map start.push := by
  rw [run_eq_map, Logged.result_map, Expr.result_parse]

/-- The machine leaves the records of the parser but the first and the last one. -/
theorem events_parse (limits : Limits) (tokens : List Token) :
    (Expr.parse limits tokens).events = .parsing tokens.length :: ((run limits tokens).events ++
      match (Expr.parse limits tokens).result with
      | .ok t => [.parsed t]
      | .error _ => []) := by
  rw [run_eq_map, Logged.events_map]
  exact Expr.events_parse limits tokens

end Yard

/-- The parser fails as the machine does, with the same error. When it finds a tree, the machine
ends with the tree as its only operand, with no operator left and no bracket open, and has written
the nodes of the tree in postorder. Between the records with which the parse begins and ends, the
same folds leave the same records. -/
theorem Expr.parse_eq_run (limits : Limits) (tokens : List Token) :
    (Yard.run limits tokens).result = (parse limits tokens).result.map (fun t =>
      { phase := .operator, operands := [t], operators := [], opened := [],
        written := t.postorder }) ∧
    (parse limits tokens).events = .parsing tokens.length :: ((Yard.run limits tokens).events ++
      match (parse limits tokens).result with
      | .ok t => [.parsed t]
      | .error _ => []) :=
  ⟨Yard.result_run limits tokens, Yard.events_parse limits tokens⟩

/-- At the closing bracket of `1+x*y)` the product is folded, and then the sum, which is too tall.
Only after that would the bracket be found to have no partner. -/
example : (Yard.run ⟨0, 1⟩ [.number 1, .operator .add, .variable "x", .operator .multiply,
    .variable "y", .closeBracket]).result = .error (.treeTooTall 1) := rfl

end Formulary
