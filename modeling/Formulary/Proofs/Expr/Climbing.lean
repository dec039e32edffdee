import Formulary.Expr.Parse
import Formulary.Proofs.Expr.Grammar
import Mathlib.Tactic.SplitIfs

/-!
# The parser and the grammar

Climbing by precedence reads exactly the expressions of the grammar. A threshold stands for a
category, `Category.above`: the operators that bind more strongly than the threshold are those that
the category joins outside of brackets.

* *Completeness* (`expression_append`): in front of a derived list the parser builds the derived
  tree and goes on behind it. This needs only that the limits allow for the tree, and that what
  follows cannot be drawn into the expression (`Stops`).
* *Soundness* (`expression_sound`): what the parser has read is derived, lies within the limits, and
  is followed by something that stops it. In the loop over operators, the invariant is that the next
  operator may have the tree built so far as its left side.

For whole lists the two directions meet in `parse_eq_ok_iff_derives`.
-/

namespace Formulary

/-! ## Thresholds and categories -/

namespace Grammar

namespace Category

/-- The category of what is read above a threshold. -/
def above (threshold : Nat) : Category :=
  if threshold < 1 then .sum
  else if threshold < 11 then .product
  else if threshold < 21 then .power
  else .atom

/-- The precedence of the operators of a category. No operator makes an atom. -/
def precedence : Category → Nat
  | .sum => 1
  | .product => 11
  | .power => 21
  | .atom => 22

theorem above_precedence (op : Operator) : above op.precedence = op.rightCategory := by
  cases op <;> rfl

theorem precedence_category (op : Operator) : op.category.precedence = op.precedence := by
  cases op <;> rfl

theorem precedence_le_rightCategory (op : Operator) :
    op.precedence ≤ op.rightCategory.precedence := by
  cases op <;> decide

theorem lt_precedence_iff {threshold : Nat} {op : Operator} :
    threshold < op.precedence ↔ (above threshold).precedence ≤ op.precedence := by
  unfold above
  cases op <;> simp only [Operator.precedence] <;> split_ifs <;> simp only [precedence] <;> omega

theorem precedence_le_atom (c : Category) : c.precedence ≤ precedence .atom := by
  cases c <;> decide

end Category

/-- An expression of a tight category is one of every looser category. -/
theorem Derives.loosen {c c' : Category} {ts : List Token} {t : Expr} (h : Derives c ts t)
    (hc : c'.precedence ≤ c.precedence) : Derives c' ts t := by
  have power (h : Derives .atom ts t) : Derives .power ts t := .ofAtom h
  have product (h : Derives .power ts t) : Derives .product ts t := .ofPower h
  have sum (h : Derives .product ts t) : Derives .sum ts t := .ofProduct h
  cases c <;> cases c' <;> simp [Category.precedence] at hc <;> grind

end Grammar

namespace Parser

open Grammar Category

/-- What may follow an expression that was read above a threshold: the end, a closing bracket, or an
operator that binds no more strongly. -/
def Stops (threshold : Nat) : List Token → Prop
  | [] => True
  | .closeBracket :: _ => True
  | .operator op :: _ => op.precedence ≤ threshold
  | _ => False

theorem Stops.mono {m n : Nat} {ts : List Token} (h : Stops m ts) (hmn : m ≤ n) : Stops n ts := by
  rcases ts with _ | ⟨_ | _ | op | _ | _, ts⟩
  case cons.operator => exact Nat.le_trans (show op.precedence ≤ m from h) hmn
  all_goals exact h

/-- Every operator is joined to an expression that is read above the threshold `0`. -/
theorem Stops.eq_nil_or_closeBracket {ts : List Token} (h : Stops 0 ts) :
    ts = [] ∨ ∃ rest, ts = .closeBracket :: rest := by
  rcases ts with _ | ⟨_ | _ | op | _ | _, rest⟩
  case nil => exact .inl rfl
  case cons.closeBracket => exact .inr ⟨rest, rfl⟩
  case cons.operator => exact absurd op.precedence_pos (Nat.not_lt.mpr h)
  all_goals exact h.elim

theorem operators_of_stops {m : Nat} {c : Cursor} (h : Stops m c.rest) (limits : Limits)
    (depth : Nat) (left : Subtree) :
    (operators limits depth m left c).result = .ok (left, c) := by
  rw [operators_eq]
  obtain ⟨position, rest⟩ := c
  rcases rest with _ | ⟨_ | _ | op | _ | _, rest⟩ <;> simp_all [Stops]

/-! ## Completeness -/

section Steps

variable {limits : Limits} {depth m position : Nat}

/-- A value in brackets, once what is inside was read up to the closing bracket. -/
theorem operand_brackets {inside rest : List Token} {inner : Subtree} {position' : Nat}
    (hd : depth < limits.maxDepth)
    (h : (expression limits (depth + 1) 0 ⟨position + 1, inside⟩).result =
      .ok (inner, ⟨position', .closeBracket :: rest⟩)) :
    (operand limits depth ⟨position, .openBracket :: inside⟩).result =
      .ok (inner, ⟨position' + 1, rest⟩) := by
  rw [operand_eq]
  simp only
  rw [if_neg (Nat.not_le.mpr hd), Logged.result_bind_ok h]
  rfl

/-- An expression begins with an operand; the operators come after it. -/
theorem expression_of_operand {c c' : Cursor} {left : Subtree}
    (h : (operand limits depth c).result = .ok (left, c')) :
    (expression limits depth m c).result = (operators limits depth m left c').result := by
  rw [expression_eq, Logged.result_bind_ok h]

/-- One round of the loop over operators, once the right side was read. -/
theorem operators_operation {op : Operator} {rest : List Token} {left right : Subtree}
    {c : Cursor} (hop : m < op.precedence)
    (h : (expression limits depth op.precedence ⟨position + 1, rest⟩).result = .ok (right, c))
    (hh : 1 + max left.height right.height ≤ limits.maxHeight) :
    (operators limits depth m left ⟨position, .operator op :: rest⟩).result =
      (operators limits depth m
        ⟨.binary left.tree op right.tree, 1 + max left.height right.height⟩ c).result := by
  rw [operators_eq]
  simp only
  rw [if_neg (Nat.not_le.mpr hop), Logged.result_bind_ok h,
    Logged.result_bind_ok (fold_eq_ok_iff.mpr ⟨hh, rfl⟩)]

end Steps

/-- In front of the tokens of an expression the parser builds its tree and goes on behind them, if
the limits allow for it and what follows is not drawn into it. -/
theorem expression_append {c : Category} {ts : List Token} {t : Expr} (h : Derives c ts t)
    {limits : Limits} (depth position : Nat) {m : Nat} {rest : List Token}
    (hm : (above m).precedence ≤ c.precedence) (hr : Stops c.precedence rest)
    (hd : depth + Token.nesting ts ≤ limits.maxDepth) (hh : t.height ≤ limits.maxHeight) :
    (expression limits depth m ⟨position, ts ++ rest⟩).result =
      (operators limits depth m ⟨t, t.height⟩ ⟨position + ts.length, rest⟩).result := by
  induction h generalizing depth m position rest with
  | number x => simp [expression_eq, operand_eq, Expr.height]
  | «variable» name => simp [expression_eq, operand_eq, Expr.height]
  | @brackets ts t h ih =>
    rw [h.nesting_brackets] at hd
    have hstop : Stops 0 (.closeBracket :: rest) := trivial
    have hinside := ih (depth + 1) (position + 1) (m := 0) (Nat.le_refl 1)
      (hstop.mono (Nat.zero_le 1)) (by omega) hh
    rw [operators_of_stops hstop] at hinside
    rw [List.cons_append, List.append_assoc, List.singleton_append,
      expression_of_operand (operand_brackets (by omega) hinside)]
    simp only [List.length_cons, List.length_append, List.length_nil]
    congr 3
    omega
  | @operation ls rs l r op hl _ ihl ihr =>
    rw [hl.nesting_operation] at hd
    rw [Expr.height] at hh
    rw [precedence_category] at hm hr ihl
    have hnext : Stops op.precedence (.operator op :: (rs ++ rest)) := Nat.le_refl op.precedence
    have hleft := ihl depth position hm hnext (by omega) (by omega)
    have hright := ihr depth (position + ls.length + 1) (m := op.precedence)
      (Nat.le_of_eq (congrArg precedence (above_precedence op)))
      (hr.mono (precedence_le_rightCategory op)) (by omega) (by omega)
    rw [operators_of_stops hr] at hright
    rw [List.append_assoc, List.cons_append, hleft,
      operators_operation (lt_precedence_iff.mpr hm) hright hh, Expr.height]
    congr 3
    simp only [List.length_append, List.length_cons]
    omega
  | ofProduct _ ih =>
    exact ih depth position (Nat.le_trans hm (by decide)) (hr.mono (by decide)) hd hh
  | ofPower _ ih =>
    exact ih depth position (Nat.le_trans hm (by decide)) (hr.mono (by decide)) hd hh
  | ofAtom _ ih =>
    exact ih depth position (Nat.le_trans hm (by decide)) (hr.mono (by decide)) hd hh

/-! ## Soundness -/

/-- From `c` the tokens `ts` were read, up to `c'`. -/
structure Reads (c : Cursor) (ts : List Token) (c' : Cursor) : Prop where
  rest : c.rest = ts ++ c'.rest
  position : c'.position = c.position + ts.length

namespace Reads

theorem advance {c : Cursor} {t : Token} {rest : List Token} (h : c.rest = t :: rest) :
    Reads c [t] (c.advance rest) :=
  ⟨h, rfl⟩

theorem trans {c₁ c₂ c₃ : Cursor} {ts us : List Token} (h₁ : Reads c₁ ts c₂)
    (h₂ : Reads c₂ us c₃) : Reads c₁ (ts ++ us) c₃ := by
  constructor
  · rw [h₁.rest, h₂.rest, List.append_assoc]
  · rw [h₂.position, h₁.position, List.length_append, Nat.add_assoc]

theorem length_lt {c c' : Cursor} {ts : List Token} (h : Reads c ts c') (hts : ts ≠ []) :
    c'.rest.length < c.rest.length := by
  have := List.length_pos_iff.mpr hts
  rw [h.rest, List.length_append]
  omega

end Reads

/-- `s` is the tree of the tokens `ts`, which stand `depth` brackets deep, and is within limits. -/
structure Built (limits : Limits) (depth : Nat) (c : Category) (ts : List Token) (s : Subtree) :
    Prop where
  derives : Derives c ts s.tree
  height_eq : s.height = s.tree.height
  height_le : s.height ≤ limits.maxHeight
  nesting_le : depth + Token.nesting ts ≤ limits.maxDepth

namespace Built

variable {limits : Limits} {depth : Nat} {ts us : List Token} {s s' : Subtree}

theorem loosen {c c' : Category} (h : Built limits depth c ts s)
    (hc : c'.precedence ≤ c.precedence) : Built limits depth c' ts s :=
  ⟨h.derives.loosen hc, h.height_eq, h.height_le, h.nesting_le⟩

theorem brackets (h : Built limits (depth + 1) .sum ts s) :
    Built limits depth .atom (.openBracket :: (ts ++ [.closeBracket])) s := by
  refine ⟨.brackets h.derives, h.height_eq, h.height_le, ?_⟩
  have := h.nesting_le
  rw [h.derives.nesting_brackets]
  omega

theorem operation {op : Operator} (hl : Built limits depth op.category ts s)
    (hr : Built limits depth op.rightCategory us s')
    (hh : 1 + max s.height s'.height ≤ limits.maxHeight) :
    Built limits depth op.category (ts ++ .operator op :: us)
      ⟨.binary s.tree op s'.tree, 1 + max s.height s'.height⟩ := by
  refine ⟨.operation op hl.derives hr.derives, ?_, hh, ?_⟩
  · rw [hl.height_eq, hr.height_eq, Expr.height]
  · have := hl.nesting_le
    have := hr.nesting_le
    rw [hl.derives.nesting_operation]
    omega

end Built

section Inversion

variable {limits : Limits} {depth m : Nat} {c c' : Cursor} {s : Subtree}

theorem exists_of_operand_brackets {inside : List Token} (hc : c.rest = .openBracket :: inside)
    (h : (operand limits depth c).result = .ok (s, c')) :
    depth < limits.maxDepth ∧ ∃ c₁ rest, c₁.rest = .closeBracket :: rest ∧ c' = c₁.advance rest ∧
      (expression limits (depth + 1) 0 (c.advance inside)).result = .ok (s, c₁) := by
  rw [operand_eq, hc] at h
  simp only at h
  split at h
  · cases h
  · obtain ⟨⟨inner, c₁⟩, he, h⟩ := Logged.result_bind_eq_ok_iff.mp h
    simp only at h
    split at h <;> cases h
    exact ⟨by omega, c₁, _, ‹_›, rfl, he⟩

theorem exists_of_expression (h : (expression limits depth m c).result = .ok (s, c')) :
    ∃ left c₁, (operand limits depth c).result = .ok (left, c₁) ∧
      (operators limits depth m left c₁).result = .ok (s, c') := by
  rw [expression_eq, Logged.result_bind_eq_ok_iff] at h
  obtain ⟨⟨left, c₁⟩, ho, h⟩ := h
  exact ⟨left, c₁, ho, h⟩

theorem exists_of_operators_operation {op : Operator} {rest : List Token} {left : Subtree}
    (hc : c.rest = .operator op :: rest) (hop : m < op.precedence)
    (h : (operators limits depth m left c).result = .ok (s, c')) :
    ∃ right c₁, (expression limits depth op.precedence (c.advance rest)).result =
        .ok (right, c₁) ∧ 1 + max left.height right.height ≤ limits.maxHeight ∧
      (operators limits depth m
        ⟨.binary left.tree op right.tree, 1 + max left.height right.height⟩ c₁).result =
          .ok (s, c') := by
  rw [operators_eq, hc] at h
  simp only at h
  rw [if_neg (Nat.not_le.mpr hop)] at h
  obtain ⟨⟨right, c₁⟩, he, h⟩ := Logged.result_bind_eq_ok_iff.mp h
  obtain ⟨joined, hf, h⟩ := Logged.result_bind_eq_ok_iff.mp h
  obtain ⟨hh, rfl⟩ := fold_eq_ok_iff.mp hf
  exact ⟨right, c₁, he, hh, h⟩

theorem stops_or_operation {left : Subtree}
    (h : (operators limits depth m left c).result = .ok (s, c')) :
    Stops m c.rest ∨ ∃ op rest, c.rest = .operator op :: rest ∧ m < op.precedence := by
  rcases hc : c.rest with _ | ⟨_ | _ | op | _ | _, rest⟩
  case cons.operator =>
    exact (Nat.lt_or_ge m op.precedence).symm.imp id fun hlt => ⟨op, rest, rfl, hlt⟩
  case nil => exact .inl trivial
  case cons.closeBracket => exact .inl trivial
  all_goals
    rw [operators_eq, hc] at h
    cases h

end Inversion

mutual

theorem operand_sound {limits : Limits} {depth : Nat} {c c' : Cursor} {s : Subtree}
    (hd : depth ≤ limits.maxDepth) (h : (operand limits depth c).result = .ok (s, c')) :
    ∃ ts, Reads c ts c' ∧ Built limits depth .atom ts s := by
  rcases hc : c.rest with _ | ⟨_ | _ | _ | _ | _, rest⟩
  case cons.openBracket =>
    obtain ⟨hlt, c₁, rest', hc₁, rfl, he⟩ := exists_of_operand_brackets hc h
    have hlen : rest.length < c.rest.length := (Reads.advance hc).length_lt (by simp)
    obtain ⟨ts, hr, hb, -⟩ := expression_sound (Nat.succ_le_of_lt hlt) he
    exact ⟨_, (Reads.advance hc).trans (hr.trans (.advance hc₁)), hb.brackets⟩
  all_goals
    rw [operand_eq, hc] at h
    cases h
  case cons.number x => exact ⟨_, .advance hc, .number x, rfl, Nat.zero_le _, hd⟩
  case cons.variable name => exact ⟨_, .advance hc, .variable name, rfl, Nat.zero_le _, hd⟩
termination_by 2 * c.rest.length

theorem expression_sound {limits : Limits} {depth m : Nat} {c c' : Cursor} {s : Subtree}
    (hd : depth ≤ limits.maxDepth) (h : (expression limits depth m c).result = .ok (s, c')) :
    ∃ ts, Reads c ts c' ∧ Built limits depth (above m) ts s ∧ Stops m c'.rest := by
  obtain ⟨left, c₁, ho, h⟩ := exists_of_expression h
  obtain ⟨ls, hl, hb⟩ := operand_sound hd ho
  have hlen := hl.length_lt hb.derives.ne_nil
  obtain ⟨ts, hr, hb', hstop⟩ := operators_sound (hb.loosen (precedence_le_atom _))
    (fun op _ _ _ => hb.derives.loosen (precedence_le_atom _)) h
  exact ⟨ls ++ ts, hl.trans hr, hb', hstop⟩
termination_by 2 * c.rest.length + 1

theorem operators_sound {limits : Limits} {depth m : Nat} {left : Subtree} {c c' : Cursor}
    {s : Subtree} {ls : List Token} (hl : Built limits depth (above m) ls left)
    (hop : ∀ op rest, c.rest = .operator op :: rest → m < op.precedence →
      Derives op.category ls left.tree)
    (h : (operators limits depth m left c).result = .ok (s, c')) :
    ∃ ts, Reads c ts c' ∧ Built limits depth (above m) (ls ++ ts) s ∧ Stops m c'.rest := by
  rcases stops_or_operation h with hs | ⟨op, rest, hc, hlt⟩
  · rw [operators_of_stops hs] at h
    cases h
    exact ⟨[], ⟨rfl, rfl⟩, by rwa [List.append_nil], hs⟩
  · obtain ⟨right, c₁, he, hh, h⟩ := exists_of_operators_operation hc hlt h
    have hd : depth ≤ limits.maxDepth := Nat.le_trans (Nat.le_add_right _ _) hl.nesting_le
    have hstep := Reads.advance hc
    have hlen : rest.length < c.rest.length := hstep.length_lt (by simp)
    obtain ⟨rs, hr, hb, hstop⟩ := expression_sound hd he
    have hlen' : c₁.rest.length < rest.length := hr.length_lt hb.derives.ne_nil
    rw [above_precedence] at hb
    have hjoined := Built.operation ⟨hop op rest hc hlt, hl.height_eq, hl.height_le, hl.nesting_le⟩
      hb hh
    have hlevel := lt_precedence_iff.mp hlt
    rw [← precedence_category] at hlevel
    -- the right side ended before an operator that binds no more strongly than `op`
    obtain ⟨ts, hr', hb', hstop'⟩ := operators_sound (hjoined.loosen hlevel)
      (fun op' rest' hc' _ => hjoined.derives.loosen (by
        rw [hc'] at hstop
        rw [precedence_category, precedence_category]
        exact hstop)) h
    refine ⟨.operator op :: (rs ++ ts), hstep.trans (hr.trans hr'), ?_, hstop'⟩
    simpa using hb'
termination_by 2 * c.rest.length

end

end Parser

/-! ## Whole lists -/

namespace Expr

open Grammar

variable {limits : Limits} {tokens : List Token} {t : Expr}

/-- A token list is accepted if it is one expression up to its end. -/
theorem parse_eq_ok_iff :
    (parse limits tokens).result = .ok t ↔ ∃ built c,
      (Parser.expression limits 0 0 ⟨0, tokens⟩).result = .ok (built, c) ∧ c.rest = [] ∧
        built.tree = t := by
  rw [parse, Logged.result_bind_ok (a := ()) rfl]
  split
  case isTrue h =>
    obtain rfl := List.isEmpty_iff.mp h
    have hend : (Parser.expression limits 0 0 ⟨0, []⟩).result = .error .unexpectedEnd := by
      rw [Parser.expression_eq, Logged.result_bind_error]
      rw [Parser.operand_eq]
      rfl
    simp [Logged.fail, hend]
  case isFalse =>
    rw [Logged.result_bind_eq_ok_iff, Prod.exists]
    refine exists_congr fun built => exists_congr fun ⟨position, rest⟩ =>
      and_congr_right fun _ => ?_
    rcases rest with _ | ⟨_ | _ | _ | _ | _, rest⟩
    case nil => exact ⟨fun h => ⟨rfl, Except.ok.inj h⟩, fun ⟨_, h⟩ => congrArg Except.ok h⟩
    all_goals exact iff_of_false nofun fun ⟨h, _⟩ => nomatch h

theorem derives_of_parse (h : (parse limits tokens).result = .ok t) :
    Derives .sum tokens t ∧ Token.nesting tokens ≤ limits.maxDepth ∧
      t.height ≤ limits.maxHeight := by
  obtain ⟨built, c, he, hc, rfl⟩ := parse_eq_ok_iff.mp h
  obtain ⟨ts, hr, hb, -⟩ := Parser.expression_sound (Nat.zero_le _) he
  obtain rfl : tokens = ts := by simpa [hc] using hr.rest
  exact ⟨hb.derives, by simpa using hb.nesting_le, hb.height_eq ▸ hb.height_le⟩

theorem parse_of_derives (h : Derives .sum tokens t) (hd : Token.nesting tokens ≤ limits.maxDepth)
    (hh : t.height ≤ limits.maxHeight) : (parse limits tokens).result = .ok t := by
  have hend : Parser.Stops 0 [] := trivial
  have he := Parser.expression_append h 0 0 (m := 0) (Nat.le_refl 1) (hend.mono (Nat.zero_le 1))
    (by rwa [Nat.zero_add]) hh
  rw [Parser.operators_of_stops hend, List.append_nil] at he
  exact parse_eq_ok_iff.mpr ⟨_, _, he, rfl, rfl⟩

end Expr

/-- A token list stands for at most one tree. -/
theorem Grammar.Derives.unique {tokens : List Token} {t t' : Expr} (h : Derives .sum tokens t)
    (h' : Derives .sum tokens t') : t = t' := by
  let limits : Limits := ⟨Token.nesting tokens, max t.height t'.height⟩
  have ht : (Expr.parse limits tokens).result = .ok t :=
    Expr.parse_of_derives h (Nat.le_refl _) (Nat.le_max_left _ _)
  have ht' : (Expr.parse limits tokens).result = .ok t' :=
    Expr.parse_of_derives h' (Nat.le_refl _) (Nat.le_max_right _ _)
  rw [ht] at ht'
  exact Except.ok.inj ht'

/-- The parser accepts the expressions of the grammar within its limits, with the one tree that the
grammar gives them. -/
theorem Expr.parse_eq_ok_iff_derives (limits : Limits) (tokens : List Token) :
    (∀ t, (Expr.parse limits tokens).result = .ok t ↔
      Grammar.Derives .sum tokens t ∧ Token.nesting tokens ≤ limits.maxDepth ∧
        t.height ≤ limits.maxHeight) ∧
    ∀ t t', Grammar.Derives .sum tokens t → Grammar.Derives .sum tokens t' → t = t' :=
  ⟨fun _ => ⟨derives_of_parse, fun ⟨h, hd, hh⟩ => parse_of_derives h hd hh⟩,
    fun _ _ h h' => h.unique h'⟩

end Formulary
