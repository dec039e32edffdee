import Formulary.Proofs.Expr.Climbing
import Formulary.Proofs.Expr.Due

/-!
# Where parsing fails

The parser fails at the first token that cannot be continued to an expression. What the parser has
read at any time is described by what is due after it (`Place`), and every error by what was due
when it was met (`Fault`); `operand_fault`, `expression_fault` and `operators_fault` follow the
parser from place to place. They need the soundness of the parser, for after a complete expression
an operator is due, and nothing but the end or a closing bracket stops an expression in brackets.

Within limits that are as large as the list is long, only tokens out of place make a parse fail. So
the parser itself shows that lists after which an operator is due, with no bracket open, are
accepted (`accepted_iff_read`), and that those after which anything is due can be continued
(`viable_iff_read`). The errors in these terms are in `parse_error_at_first_dead_token`.
-/

namespace Formulary

/-! ## Faults -/

/-- What the parser expects where something is due. -/
def Due.expectation : Due → Expectation
  | value _ => .value
  | operator _ => .operatorOrClose

namespace Parser

open Grammar Category

/-- What an error says about the tokens. -/
inductive Fault (limits : Limits) (ts : List Token) : ParseError → Prop
  | unexpectedEnd {depth : Nat} (h : Due.read ts = some (.value depth)) :
      Fault limits ts .unexpectedEnd
  | unexpectedToken {us rest : List Token} {t : Token} {due : Due} (hts : ts = us ++ t :: rest)
      (hus : Due.read us = some due) (ht : due.next t = none) :
      Fault limits ts (.unexpectedToken due.expectation t us.length)
  | unclosedBracket {us vs : List Token} {inner : Expr} {depth : Nat}
      (hts : ts = us ++ .openBracket :: vs) (hus : Due.read us = some (.value depth))
      (hvs : Derives .sum vs inner) : Fault limits ts (.unclosedBracket us.length)
  | unmatchedBracket {us rest : List Token} (hts : ts = us ++ .closeBracket :: rest)
      (hus : Due.read us = some (.operator 0)) : Fault limits ts (.unmatchedBracket us.length)
  | nestingTooDeep (h : limits.maxDepth < ts.length) :
      Fault limits ts (.nestingTooDeep limits.maxDepth)
  | treeTooTall (h : limits.maxHeight < ts.length) :
      Fault limits ts (.treeTooTall limits.maxHeight)

/-- The parser has read `us` of the tokens `ts` and stands where `due` is due. -/
structure Place (ts us : List Token) (c : Cursor) (due : Due) : Prop where
  reads : Reads ⟨0, ts⟩ us c
  read : Due.read us = some due

namespace Place

variable {limits : Limits} {ts us vs rest : List Token} {c c' : Cursor} {due due' : Due}
  {depth : Nat} {t : Token} {e : Expr} {category : Category}

theorem position (h : Place ts us c due) : c.position = us.length := by
  simpa using h.reads.position

theorem advance (h : Place ts us c due) (hc : c.rest = t :: rest) (ht : due.next t = some due') :
    Place ts (us ++ [t]) (c.advance rest) due' := by
  refine ⟨h.reads.trans (.advance hc), ?_⟩
  rw [Due.read_append_cons h.read, ht]
  rfl

theorem expression (h : Place ts us c (.value depth)) (hr : Reads c vs c')
    (hv : Derives category vs e) : Place ts (us ++ vs) c' (.operator depth) := by
  refine ⟨h.reads.trans hr, ?_⟩
  rw [Due.read_append h.read, hv.readFrom]

theorem length_lt (h : Place ts us c due) (hc : c.rest = t :: rest) : us.length < ts.length := by
  have hts : ts = us ++ c.rest := h.reads.rest
  rw [hts, hc, List.length_append, List.length_cons]
  omega

theorem unexpected (h : Place ts us c due) (hc : c.rest = t :: rest) (ht : due.next t = none) :
    Fault limits ts (.unexpectedToken due.expectation t c.position) := by
  rw [h.position]
  exact .unexpectedToken (hc ▸ h.reads.rest) h.read ht

end Place

/-! ## How the parts of the parser fail -/

section Inversion

variable {limits : Limits} {depth m : Nat} {c : Cursor} {e : ParseError}

/-- Inside of brackets, nothing but the end is met in place of the closing bracket. -/
theorem operand_brackets_eq_error {inside : List Token} (hc : c.rest = .openBracket :: inside)
    (h : (operand limits depth c).result = .error e) :
    limits.maxDepth ≤ depth ∧ e = .nestingTooDeep limits.maxDepth ∨
    depth < limits.maxDepth ∧
      ((expression limits (depth + 1) 0 (c.advance inside)).result = .error e ∨
        ∃ inner c₁, (expression limits (depth + 1) 0 (c.advance inside)).result = .ok (inner, c₁) ∧
          c₁.rest = [] ∧ e = .unclosedBracket c.position) := by
  rw [operand_eq, hc] at h
  simp only at h
  split at h
  case isTrue hle =>
    cases h
    exact .inl ⟨hle, rfl⟩
  case isFalse hlt =>
    have hlt := Nat.lt_of_not_le hlt
    refine .inr ⟨hlt, (Logged.result_bind_eq_error_iff.mp h).imp id ?_⟩
    rintro ⟨⟨inner, c₁⟩, he, h⟩
    obtain ⟨-, -, -, hstop⟩ := expression_sound hlt he
    rcases hstop.eq_nil_or_closeBracket with hc₁ | ⟨rest, hc₁⟩ <;> simp only [hc₁] at h <;> cases h
    exact ⟨inner, c₁, he, hc₁, rfl⟩

theorem expression_eq_error (h : (expression limits depth m c).result = .error e) :
    (operand limits depth c).result = .error e ∨ ∃ left c₁,
      (operand limits depth c).result = .ok (left, c₁) ∧
        (operators limits depth m left c₁).result = .error e := by
  rw [expression_eq, Logged.result_bind_eq_error_iff, Prod.exists] at h
  exact h

theorem operators_operation_eq_error {op : Operator} {rest : List Token} {left : Subtree}
    (hc : c.rest = .operator op :: rest)
    (h : (operators limits depth m left c).result = .error e) :
    (expression limits depth op.precedence (c.advance rest)).result = .error e ∨ ∃ right c₁,
      (expression limits depth op.precedence (c.advance rest)).result = .ok (right, c₁) ∧
        (limits.maxHeight < 1 + max left.height right.height ∧
            e = .treeTooTall limits.maxHeight ∨
          (operators limits depth m
            ⟨.binary left.tree op right.tree, 1 + max left.height right.height⟩ c₁).result =
              .error e) := by
  rw [operators_eq, hc] at h
  simp only at h
  split at h
  · cases h
  · refine (Logged.result_bind_eq_error_iff.mp h).imp id ?_
    rintro ⟨⟨right, c₁⟩, he, h⟩
    refine ⟨right, c₁, he, (Logged.result_bind_eq_error_iff.mp h).imp fold_eq_error_iff.mp ?_⟩
    rintro ⟨joined, hf, h⟩
    obtain ⟨-, rfl⟩ := fold_eq_ok_iff.mp hf
    exact h

end Inversion

/-! ## Every error is a fault -/

mutual

-- every call is on fewer tokens, but for the operand that an expression begins with
theorem operand_fault {limits : Limits} {depth : Nat} {c : Cursor} {e : ParseError}
    {ts us : List Token} (hd : depth ≤ limits.maxDepth) (h : Place ts us c (.value depth))
    (he : (operand limits depth c).result = .error e) : Fault limits ts e := by
  rcases hc : c.rest with _ | ⟨_ | _ | _ | _ | _, rest⟩
  case cons.openBracket =>
    have hinside := h.advance hc rfl
    have hlen : rest.length < c.rest.length := (Reads.advance hc).length_lt (by simp)
    rcases operand_brackets_eq_error hc he with ⟨hle, rfl⟩ | ⟨hlt, he | ⟨inner, c₁, hi, hc₁, rfl⟩⟩
    · -- each of the open brackets is one of the tokens
      have hdepth := Due.depth_le_of_readFrom h.read
      have hlength := h.length_lt hc
      refine .nestingTooDeep ?_
      simp only [Due.depth] at hdepth
      omega
    · exact expression_fault hlt hinside he
    · -- the expression in the bracket runs to the end of the tokens
      obtain ⟨vs, hr, hb, -⟩ := expression_sound hlt hi
      have hts : ts = us ++ c.rest := h.reads.rest
      have hvs : rest = vs := by simpa [hc₁] using hr.rest
      rw [h.position]
      exact .unclosedBracket (by rw [hts, hc, hvs]) h.read hb.derives
  all_goals
    rw [operand_eq, hc] at he
    cases he
  case nil =>
    have hts : ts = us ++ c.rest := h.reads.rest
    rw [hc, List.append_nil] at hts
    exact .unexpectedEnd (hts ▸ h.read)
  case cons.operator => exact h.unexpected hc rfl
  case cons.closeBracket => exact h.unexpected hc rfl
termination_by 2 * c.rest.length

theorem expression_fault {limits : Limits} {depth m : Nat} {c : Cursor} {e : ParseError}
    {ts us : List Token} (hd : depth ≤ limits.maxDepth) (h : Place ts us c (.value depth))
    (he : (expression limits depth m c).result = .error e) : Fault limits ts e := by
  rcases expression_eq_error he with he | ⟨left, c₁, ho, he⟩
  · exact operand_fault hd h he
  · obtain ⟨ls, hr, hb⟩ := operand_sound hd ho
    have hlen := hr.length_lt hb.derives.ne_nil
    have hheight := hb.derives.height_lt_length
    refine operators_fault hd (h.expression hr hb.derives) ?_ he
    rw [hb.height_eq, List.length_append]
    omega
termination_by 2 * c.rest.length + 1

theorem operators_fault {limits : Limits} {depth m : Nat} {left : Subtree} {c : Cursor}
    {e : ParseError} {ts us : List Token} (hd : depth ≤ limits.maxDepth)
    (h : Place ts us c (.operator depth)) (hl : left.height < us.length)
    (he : (operators limits depth m left c).result = .error e) : Fault limits ts e := by
  rcases hc : c.rest with _ | ⟨_ | _ | op | _ | _, rest⟩
  case cons.operator =>
    have hright := h.advance hc rfl
    have hlen : rest.length < c.rest.length := (Reads.advance hc).length_lt (by simp)
    rcases operators_operation_eq_error hc he with he | ⟨right, c₁, hi, he⟩
    · exact expression_fault hd hright he
    · obtain ⟨rs, hr, hb, -⟩ := expression_sound hd hi
      have hlen' : c₁.rest.length < rest.length := hr.length_lt hb.derives.ne_nil
      have hheight := hb.derives.height_lt_length
      have hjoined := hright.expression hr hb.derives
      -- the joined tree is again lower than there are tokens up to its end
      have hleft : 1 + max left.height right.height <
          (us ++ [Token.operator op] ++ rs).length := by
        simp only [hb.height_eq, List.length_append, List.length_singleton]
        omega
      rcases he with ⟨htall, rfl⟩ | he
      · have hts : ts = us ++ [Token.operator op] ++ rs ++ c₁.rest := hjoined.reads.rest
        refine .treeTooTall (Nat.lt_trans htall ?_)
        rw [hts, List.length_append]
        exact Nat.lt_add_right _ hleft
      · exact operators_fault hd hjoined hleft he
  all_goals
    rw [operators_eq, hc] at he
    cases he
  all_goals exact h.unexpected hc rfl
termination_by 2 * c.rest.length

end

end Parser

/-! ## Accepted lists and their beginnings -/

/-- The errors that are about the tokens and not about the limits. -/
def ParseError.IsSyntax : ParseError → Prop
  | unexpectedEnd => True
  | unexpectedToken .. => True
  | unclosedBracket _ => True
  | unmatchedBracket _ => True
  | _ => False

namespace Expr

/-- Token lists that are accepted if the limits allow for it. -/
def Accepted (ts : List Token) : Prop :=
  ∃ limits t, (parse limits ts).result = .ok t

/-- Token lists that begin an accepted one. -/
def Viable (ts : List Token) : Prop :=
  ∃ rest, Accepted (ts ++ rest)

variable {limits : Limits} {ts us rest : List Token} {e : ParseError}

theorem parse_fault (he : (parse limits ts).result = .error e) :
    ts = [] ∧ e = .emptyExpression ∨ Parser.Fault limits ts e := by
  rcases ts with _ | ⟨t, ts⟩
  · cases he
    exact .inl ⟨rfl, rfl⟩
  right
  have hstart : Parser.Place (t :: ts) [] ⟨0, t :: ts⟩ (.value 0) := ⟨⟨rfl, rfl⟩, rfl⟩
  rw [parse, Logged.result_bind_ok (a := ()) rfl, List.isEmpty_cons, if_neg Bool.false_ne_true,
    Logged.result_bind_eq_error_iff, Prod.exists] at he
  rcases he with he | ⟨built, c, hok, he⟩
  · exact Parser.expression_fault (Nat.zero_le _) hstart he
  · obtain ⟨us, hr, hb, hstop⟩ := Parser.expression_sound (Nat.zero_le _) hok
    have hplace := hstart.expression hr hb.derives
    rcases hstop.eq_nil_or_closeBracket with hc | ⟨rest, hc⟩ <;> simp only [hc] at he <;> cases he
    rw [hplace.position]
    exact .unmatchedBracket (hc ▸ hplace.reads.rest) hplace.read

/-- Within limits as large as the list, tokens that are all in place are parsed. -/
theorem accepted_iff_read : Accepted ts ↔ Due.read ts = some (.operator 0) := by
  constructor
  · rintro ⟨limits, t, h⟩
    exact (derives_of_parse h).1.readFrom 0
  · intro h
    rcases hparse : (parse ⟨ts.length, ts.length⟩ ts).result with e | t
    case ok => exact ⟨_, t, hparse⟩
    case error =>
      -- no token out of place lets an operator be due at depth `0`, and no limit is broken
      exfalso
      rcases parse_fault hparse with ⟨rfl, -⟩ | hfault
      · cases h
      cases hfault with
      | unexpectedEnd h' =>
        rw [h'] at h
        cases h
      | unexpectedToken heq hus ht =>
        rw [heq, Due.read_append_cons hus, ht] at h
        cases h
      | unclosedBracket heq hus hvs =>
        rw [heq, Due.read_append_cons hus, Due.next, Option.bind_eq_bind, Option.bind_some,
          hvs.readFrom] at h
        cases h
      | unmatchedBracket heq hus =>
        rw [heq, Due.read_append_cons hus] at h
        cases h
      | nestingTooDeep hlt => exact Nat.lt_irrefl _ hlt
      | treeTooTall hlt => exact Nat.lt_irrefl _ hlt

theorem viable_iff_read : Viable ts ↔ ∃ due, Due.read ts = some due := by
  constructor
  · rintro ⟨rest, h⟩
    exact Due.exists_of_read_append (accepted_iff_read.mp h)
  · rintro ⟨due, h⟩
    obtain ⟨rest, hrest⟩ := due.exists_readFrom
    exact ⟨rest, accepted_iff_read.mpr (by rw [Due.read_append h, hrest])⟩

end Expr

/-! ## What the errors say -/

namespace Parser.Fault

variable {limits : Limits} {ts : List Token} {e : ParseError} {position : Nat}

/-- Up to the token the list is viable, with the token it is not. -/
theorem of_unexpectedToken {expected : Expectation} {found : Token}
    (h : Fault limits ts (.unexpectedToken expected found position)) :
    ts[position]? = some found ∧ Expr.Viable (ts.take position) ∧
      ¬ Expr.Viable (ts.take (position + 1)) ∧
      expected.text = if Token.awaitsValue (ts.take position)
        then "a number, a variable or '('" else "an operator or ')'" := by
  cases h with
  | @unexpectedToken us rest _ due hts hus ht =>
    have htake : ts.take us.length = us := by rw [hts, List.take_left]
    have htake' : ts.take (us.length + 1) = us ++ [found] := by
      rw [hts, List.take_length_add_append, List.take_succ_cons, List.take_zero]
    rw [htake, htake', Due.awaitsValue_of_read hus]
    refine ⟨?_, Expr.viable_iff_read.mpr ⟨due, hus⟩, ?_, ?_⟩
    · rw [hts, List.getElem?_append_right (Nat.le_refl _), Nat.sub_self, List.getElem?_cons_zero]
    · rw [Expr.viable_iff_read, Due.read_append_cons hus, ht]
      rintro ⟨due', h'⟩
      cases h'
    · cases due <;> rfl

theorem of_unmatchedBracket (h : Fault limits ts (.unmatchedBracket position)) :
    ts[position]? = some .closeBracket ∧ Expr.Accepted (ts.take position) := by
  cases h with
  | unmatchedBracket hts hus =>
    rw [hts, List.take_left]
    refine ⟨?_, Expr.accepted_iff_read.mpr hus⟩
    rw [List.getElem?_append_right (Nat.le_refl _), Nat.sub_self, List.getElem?_cons_zero]

theorem of_unexpectedEnd (h : Fault limits ts .unexpectedEnd) :
    Expr.Viable ts ∧ Token.awaitsValue ts = true := by
  cases h with
  | unexpectedEnd hread =>
    exact ⟨Expr.viable_iff_read.mpr ⟨_, hread⟩, Due.awaitsValue_of_read hread⟩

theorem of_unclosedBracket (h : Fault limits ts (.unclosedBracket position)) :
    Expr.Viable ts ∧ ¬ Expr.Accepted ts ∧ Token.awaitsValue ts = false ∧
      (Token.unclosed ts).head? = some position := by
  cases h with
  | @unclosedBracket us vs inner depth hts hus hvs =>
    have hread : Due.read ts = some (.operator (depth + 1)) := by
      rw [hts, Due.read_append_cons hus, Due.next, Option.bind_eq_bind, Option.bind_some,
        hvs.readFrom]
    refine ⟨Expr.viable_iff_read.mpr ⟨_, hread⟩, ?_, Due.awaitsValue_of_read hread, ?_⟩
    · rw [Expr.accepted_iff_read, hread]
      intro h
      cases h
    · rw [hts, hvs.head?_unclosed]

theorem isSyntax_or_limit (h : Fault limits ts e) :
    e.IsSyntax ∨ e = .nestingTooDeep limits.maxDepth ∨ e = .treeTooTall limits.maxHeight := by
  cases h with
  | nestingTooDeep _ => exact .inr (.inl rfl)
  | treeTooTall _ => exact .inr (.inr rfl)
  | _ => exact .inl trivial

end Parser.Fault

/-- Tokens out of place are reported where the list ceases to be viable, with what was due there; an
end out of place is reported by what was due at the end. Every list that is not accepted is reported
in one of these ways, if it does not break a limit before. -/
theorem Expr.parse_error_at_first_dead_token (limits : Limits) (ts : List Token) :
    (∀ expected found position,
      (parse limits ts).result = .error (.unexpectedToken expected found position) →
        ts[position]? = some found ∧ Viable (ts.take position) ∧
          ¬ Viable (ts.take (position + 1)) ∧
          expected.text = if Token.awaitsValue (ts.take position)
            then "a number, a variable or '('" else "an operator or ')'") ∧
    (∀ position, (parse limits ts).result = .error (.unmatchedBracket position) →
      ts[position]? = some .closeBracket ∧ Accepted (ts.take position)) ∧
    ((parse limits ts).result = .error .unexpectedEnd →
      ts ≠ [] ∧ Viable ts ∧ Token.awaitsValue ts = true) ∧
    (∀ position, (parse limits ts).result = .error (.unclosedBracket position) →
      Viable ts ∧ ¬ Accepted ts ∧ Token.awaitsValue ts = false ∧
        (Token.unclosed ts).head? = some position) ∧
    (ts ≠ [] → ¬ Accepted ts → ∃ e, (parse limits ts).result = .error e ∧
      (e.IsSyntax ∨ e = .nestingTooDeep limits.maxDepth ∨ e = .treeTooTall limits.maxHeight)) := by
  have hfault {e : ParseError} (he : (parse limits ts).result = .error e)
      (hne : e ≠ .emptyExpression) : Parser.Fault limits ts e :=
    (parse_fault he).resolve_left fun h => hne h.2
  refine ⟨fun expected found position he => (hfault he nofun).of_unexpectedToken,
    fun position he => (hfault he nofun).of_unmatchedBracket, fun he => ⟨?_, ?_⟩,
    fun position he => (hfault he nofun).of_unclosedBracket, fun hts hrejected => ?_⟩
  · rintro rfl
    cases he
  · exact (hfault he nofun).of_unexpectedEnd
  · rcases hparse : (parse limits ts).result with e | t
    · rcases parse_fault hparse with ⟨hnil, -⟩ | h
      · exact absurd hnil hts
      · exact ⟨e, rfl, h.isSyntax_or_limit⟩
    · exact absurd ⟨limits, t, hparse⟩ hrejected

/-- `(x+)`, `x)`, `(x+` and `((x)`, each with its error. -/
theorem Expr.parse_error_of_each_kind :
    let x : Token := .variable "x"
    let plus : Token := .operator .add
    let sum := [.openBracket, x, plus, .closeBracket]
    let nested := [.openBracket, .openBracket, x, .closeBracket]
    ((parse {} sum).result = .error (.unexpectedToken .value .closeBracket 3) ∧
      Viable (sum.take 3) ∧ ¬ Viable sum) ∧
    ((parse {} [x, .closeBracket]).result = .error (.unmatchedBracket 1) ∧ Accepted [x]) ∧
    ((parse {} (sum.take 3)).result = .error .unexpectedEnd ∧
      Token.awaitsValue (sum.take 3) = true) ∧
    ((parse {} nested).result = .error (.unclosedBracket 0) ∧ Viable nested ∧ ¬ Accepted nested ∧
      (Token.unclosed nested).head? = some 0) := by
  intro x plus sum nested
  have hsum : (parse {} sum).result = .error (.unexpectedToken .value .closeBracket 3) := by cbv
  have hclosed : (parse {} [x, .closeBracket]).result = .error (.unmatchedBracket 1) := by cbv
  have hend : (parse {} (sum.take 3)).result = .error .unexpectedEnd := by cbv
  have hnested : (parse {} nested).result = .error (.unclosedBracket 0) := by cbv
  obtain ⟨-, hviable, hdead, -⟩ := (parse_error_at_first_dead_token {} sum).1 _ _ _ hsum
  obtain ⟨-, haccepted⟩ := (parse_error_at_first_dead_token {} [x, .closeBracket]).2.1 _ hclosed
  obtain ⟨-, -, hawaits⟩ := (parse_error_at_first_dead_token {} (sum.take 3)).2.2.1 hend
  obtain ⟨hopen, hrejected, -, hplace⟩ :=
    (parse_error_at_first_dead_token {} nested).2.2.2.1 _ hnested
  exact ⟨⟨hsum, hviable, hdead⟩, ⟨hclosed, haccepted⟩, ⟨hend, hawaits⟩,
    hnested, hopen, hrejected, hplace⟩

end Formulary
