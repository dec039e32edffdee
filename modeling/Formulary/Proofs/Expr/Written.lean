import Formulary.Proofs.Expr.Climbing
import Formulary.Proofs.Token.Written

/-!
# Written trees

The text of a tree stands for the tokens `Expr.bracketed`, with one pair of brackets for each
operation (`Expr.spells_text`). This needs that numbers are finite and have a clear sign bit, and
that no name holds a closing brace, `Expr.Writable`; the trees of scanned tokens are of this kind
(`Derives.writable`).

The bracketed tokens derive the tree as an atom, and nest as deeply as the tree is high. So the
parser reads them, up to trees of the height to which brackets may nest (`Expr.parse_bracketed`); on
higher ones it stops at a bracket that is nested too deeply (`Expr.parse_bracketed_eq_error`).
-/

namespace Formulary

namespace Expr

/-- Trees whose leaves are tokens that lexemes stand for. -/
def Writable : Expr → Prop
  | number x => (Token.number x).Writable
  | .variable name => (Token.variable name).Writable
  | binary l _ r => l.Writable ∧ r.Writable

end Expr

/-- A tree has its leaves from the tokens. -/
theorem Grammar.Derives.writable {c : Category} {ts : List Token} {t : Expr} (h : Derives c ts t)
    (hts : ∀ token ∈ ts, token.Writable) : t.Writable := by
  induction h with
  | number x => exact hts _ (List.mem_singleton_self _)
  | «variable» name => exact hts _ (List.mem_singleton_self _)
  | brackets _ ih =>
    exact ih fun token ht => hts token (List.mem_cons_of_mem _ (List.mem_append_left _ ht))
  | operation op _ _ ihl ihr =>
    exact ⟨ihl fun token ht => hts token (List.mem_append_left _ ht),
      ihr fun token ht => hts token (List.mem_append_right _ (List.mem_cons_of_mem _ ht))⟩
  | ofProduct _ ih | ofPower _ ih | ofAtom _ ih => exact ih hts

/-! ## The tokens of a written tree -/

namespace Expr

open Grammar

/-- The tokens of the tree's text. -/
def bracketed : Expr → List Token
  | number x => [.number x]
  | .variable name => [.variable name]
  | binary l op r =>
    .openBracket :: (l.bracketed ++ .operator op :: r.bracketed ++ [.closeBracket])

theorem toList_text_binary (l : Expr) (op : Operator) (r : Expr) (rest : List Char) :
    (binary l op r).text.toList ++ rest =
      '(' :: (l.text.toList ++ ' ' :: op.symbol :: ' ' :: (r.text.toList ++ ')' :: rest)) := by
  simp [text, Operator.text]

/-- The text of an operation stands for brackets around its operator and the tokens of its sides. -/
theorem spells_binary {l r : Expr} {ls rs : List Token} (op : Operator)
    (hl : Spells l.text.toList ls) (hr : Spells r.text.toList rs) :
    Spells (binary l op r).text.toList
      (.openBracket :: (ls ++ .operator op :: rs ++ [.closeBracket])) := by
  intro rest _
  have hclose : Ends (')' :: rest) := by rintro c ⟨⟩; decide
  have hsymbol (cs : List Char) : Maximal [op.symbol] cs := by
    cases op <;> exact maximal_cons rfl rfl
  obtain ⟨lws, hls⟩ := hl _ (ends_space (op.symbol :: ' ' :: (r.text.toList ++ ')' :: rest)))
  obtain ⟨rws, hrs⟩ := hr _ hclose
  have hend := hrs.append (.cons .closeBracket (maximal_cons rfl rfl) (.nil rest))
  have hop := Split.cons .space (maximal_cons rfl rfl)
    (.cons (.operator op) (hsymbol _) (.cons .space (maximal_cons rfl rfl) hend))
  have hall := Split.cons .openBracket (maximal_cons rfl rfl) (hls.append hop)
  rw [toList_text_binary, List.append_assoc]
  exact ⟨_, hall⟩

/-- The text of a tree stands for its tokens. -/
theorem spells_text {t : Expr} (h : t.Writable) : Spells t.text.toList t.bracketed := by
  induction t with
  | number x => exact (Token.isLexeme_text_number h).spells
  | «variable» name => exact (Token.isLexeme_nameText h).spells
  | binary l op r ihl ihr => exact spells_binary op (ihl h.1) (ihr h.2)

theorem derives_bracketed (t : Expr) : Derives .atom t.bracketed t := by
  induction t with
  | number x => exact .number x
  | «variable» name => exact .variable name
  | binary l op r ihl ihr =>
    have hop : Derives op.category (l.bracketed ++ .operator op :: r.bracketed) (.binary l op r) :=
      .operation op (ihl.loosen (Category.precedence_le_atom _))
        (ihr.loosen (Category.precedence_le_atom _))
    exact .brackets (hop.loosen (by cases op <;> decide))

theorem derives_bracketed_sum (t : Expr) : Derives .sum t.bracketed t :=
  t.derives_bracketed.loosen (Category.precedence_le_atom _)

/-- The brackets show the tree. -/
theorem bracketed_injective {t u : Expr} (h : t.bracketed = u.bracketed) : t = u := by
  have ht := t.derives_bracketed_sum
  rw [h] at ht
  exact ht.unique u.derives_bracketed_sum

/-- Every operation costs one pair of brackets. -/
theorem nesting_bracketed (t : Expr) : Token.nesting t.bracketed = t.height := by
  induction t with
  | number x => rfl
  | «variable» name => rfl
  | binary l op r ihl ihr =>
    have hl := l.derives_bracketed
    have hr := r.derives_bracketed
    rw [bracketed, height, Token.nesting, List.append_assoc, hl.nesting_append, List.cons_append,
      Token.nesting, hr.nesting_append, ihl, ihr]
    simp only [Token.nesting]
    omega

end Expr

/-! ## Trees that are too high to be written -/

namespace Parser

variable {limits : Limits} {depth m position : Nat} {rest : List Token} {e : ParseError}

theorem operand_brackets_error (hd : depth < limits.maxDepth)
    (h : (expression limits (depth + 1) 0 ⟨position + 1, rest⟩).result = .error e) :
    (operand limits depth ⟨position, .openBracket :: rest⟩).result = .error e := by
  rw [operand_eq]
  simp only
  rw [if_neg (Nat.not_le.mpr hd), Logged.result_bind_error h]

theorem expression_error {c : Cursor} (h : (operand limits depth c).result = .error e) :
    (expression limits depth m c).result = .error e := by
  rw [expression_eq, Logged.result_bind_error h]

theorem operators_error {op : Operator} {left : Subtree} (hop : m < op.precedence)
    (h : (expression limits depth op.precedence ⟨position + 1, rest⟩).result = .error e) :
    (operators limits depth m left ⟨position, .operator op :: rest⟩).result = .error e := by
  rw [operators_eq]
  simp only
  rw [if_neg (Nat.not_le.mpr hop), Logged.result_bind_error h]

/-- A written tree that would nest too deeply is not read, because of that and nothing else. -/
theorem operand_bracketed_eq_error {t : Expr} (hd : depth ≤ limits.maxDepth)
    (ht : limits.maxDepth < depth + t.height) (hh : t.height ≤ limits.maxHeight) :
    (operand limits depth ⟨position, t.bracketed ++ rest⟩).result =
      .error (.nestingTooDeep limits.maxDepth) := by
  induction t generalizing depth position rest with
  | number x => exact absurd ht (Nat.not_lt.mpr hd)
  | «variable» name => exact absurd ht (Nat.not_lt.mpr hd)
  | binary l op r ihl ihr =>
    rw [Expr.height] at ht hh
    simp only [Expr.bracketed, List.cons_append, List.append_assoc, List.nil_append]
    rcases Nat.lt_or_ge depth limits.maxDepth with hlt | hge
    case inr =>
      rw [operand_eq]
      simp only
      rw [if_pos hge]
      rfl
    apply operand_brackets_error hlt
    rcases Nat.lt_or_ge limits.maxDepth (depth + 1 + l.height) with hl | hl
    · exact expression_error (ihl hlt hl (by omega))
    -- the left side is read, so it is the right side that is too high
    · have hop : op.precedence ≤ Grammar.Category.precedence .atom := by cases op <;> decide
      have hstop : Stops (Grammar.Category.precedence .atom)
          (.operator op :: (r.bracketed ++ .closeBracket :: rest)) := hop
      rw [expression_append l.derives_bracketed (depth + 1) (position + 1)
        (Grammar.Category.precedence_le_atom _) hstop (by rwa [l.nesting_bracketed]) (by omega)]
      exact operators_error op.precedence_pos
        (expression_error (ihr hlt (by omega) (by omega)))

end Parser

theorem Expr.parse_bracketed {limits : Limits} {t : Expr} (hd : t.height ≤ limits.maxDepth)
    (hh : t.height ≤ limits.maxHeight) : (Expr.parse limits t.bracketed).result = .ok t :=
  Expr.parse_of_derives t.derives_bracketed_sum (by rwa [t.nesting_bracketed]) hh

theorem Expr.parse_bracketed_eq_error {limits : Limits} {t : Expr}
    (hd : limits.maxDepth < t.height) (hh : t.height ≤ limits.maxHeight) :
    (Expr.parse limits t.bracketed).result = .error (.nestingTooDeep limits.maxDepth) := by
  have hne : t.bracketed.isEmpty = false := by
    simpa using t.derives_bracketed.ne_nil
  have herror : (Parser.operand limits 0 ⟨0, t.bracketed ++ []⟩).result =
      .error (.nestingTooDeep limits.maxDepth) :=
    Parser.operand_bracketed_eq_error (Nat.zero_le _) (by rwa [Nat.zero_add]) hh
  rw [List.append_nil] at herror
  rw [Expr.parse, Logged.result_bind_ok (a := ()) rfl, hne]
  exact Logged.result_bind_error (Parser.expression_error herror)

end Formulary
