import Formulary.Formula
import Formulary.Proofs.Expr.Equality
import Formulary.Proofs.Formula.Inorder

/-!
# Reading a written tree again

Which trees come back from their own texts? The writable ones do, within the limits. Of the others,
a tree with a closing brace in a name, with an infinity or with a not-a-number cannot come back,
because a parsed tree has none of these and equals no tree that has. What remains are negative
zeros, which equal the zeros that can be read. But the sign of a negative number is read as an
operator (`Expr.signed`), and a tree has no more operations than the text has operators, so a text
with a sign is that of a larger tree, or of none (`Expr.parseText_text_iff`).
-/

namespace Formulary.Expr

/-! ## The tokens of signs -/

/-- The tokens of the tree's text, in which the sign of a negative number is an operator. -/
def signed : Expr → List Token
  | number x =>
    if Number.isNegative x then
      [.operator .subtract, .number (Number.ofPattern (Number.magnitude x))]
    else [.number x]
  | .variable name => [.variable name]
  | binary l op r => .openBracket :: (l.signed ++ .operator op :: r.signed ++ [.closeBracket])

/-- The number of leaves that are numbers with a sign. -/
def signs : Expr → Nat
  | number x => if Number.isNegative x then 1 else 0
  | .variable _ => 0
  | binary l _ r => l.signs + r.signs

/-- Every operation and every sign is an operator among the tokens. -/
theorem countP_signed (t : Expr) :
    2 * t.signed.countP Token.isOperator + 1 = t.size + 2 * t.signs := by
  induction t with
  | number x =>
    rw [signed, signs, size]
    split <;> rfl
  | «variable» name => rfl
  | binary l op r ihl ihr =>
    have hop : Token.isOperator (.operator op) = true := rfl
    have hopen : ¬ Token.isOperator .openBracket = true := Bool.false_ne_true
    have hclose : [Token.closeBracket].countP Token.isOperator = 0 := rfl
    rw [signed, signs, size, List.countP_cons_of_neg hopen, List.countP_append, List.countP_append,
      List.countP_cons_of_pos hop, hclose]
    omega

theorem writable_of_signs {t : Expr} (h : t.Scannable) (hs : t.signs = 0) : t.Writable := by
  induction t with
  | number x =>
    rw [signs] at hs
    exact ⟨h, by simpa using hs⟩
  | «variable» name => exact h
  | binary l op r ihl ihr =>
    obtain ⟨hl, hr⟩ := Nat.add_eq_zero_iff.mp hs
    exact ⟨ihl h.1 hl, ihr h.2 hr⟩

theorem spells_text_signed {t : Expr} (h : t.Scannable) : Spells t.text.toList t.signed := by
  induction t with
  | number x =>
    rw [signed]
    split
    case isTrue hs =>
      have hle := Nat.le_of_lt h
      have hw : (Token.number (Number.ofPattern (Number.magnitude x))).Writable :=
        ⟨by rwa [Number.IsFinite, Number.magnitude_ofPattern hle], Number.isNegative_ofPattern hle⟩
      intro rest hr
      obtain ⟨ws, hnumber⟩ := (Token.isLexeme_text_number hw).spells rest hr
      rw [text, Number.text_of_isNegative h hs, String.toList_append]
      exact ⟨_, .cons (.operator .subtract) (maximal_cons rfl rfl) hnumber⟩
    case isFalse hs =>
      have hw : (Token.number x).Writable := ⟨h, by simpa using hs⟩
      exact (Token.isLexeme_text_number hw).spells
  | «variable» name => exact (Token.isLexeme_nameText h).spells
  | binary l op r ihl ihr => exact spells_binary op (ihl h.1) (ihr h.2)

/-! ## Texts and trees -/

theorem parseText_eq_ok_iff {limits : Limits} {text : String} {t : Expr} :
    (parseText limits text).result = .ok t ↔
      ∃ tokens, Token.scan 0 text.toList = .ok tokens ∧ (parse limits tokens).result = .ok t := by
  rw [parseText, Logged.result_bind_eq_ok_iff]
  simp only [Logged.result_mapError_eq_ok_iff, Token.result_tokenize]

/-- A tree that equals one read from its own text is writable. -/
theorem writable_of_parseText {limits : Limits} {t u : Expr}
    (h : (parseText limits t.text).result = .ok u) (he : (u == t) = true) : t.Writable := by
  obtain ⟨tokens, hscan, hparse⟩ := parseText_eq_ok_iff.mp h
  obtain ⟨ws, hsplit⟩ := Token.scan_eq_ok_iff.mp hscan
  have hderives := (derives_of_parse hparse).1
  obtain ⟨hu, ht⟩ := eq_unsigned_of_beq (hderives.writable hsplit.writable) he
  rw [(spells_text_signed ht).scan] at hscan
  obtain rfl := Except.ok.inj hscan
  have hsize : t.size = 2 * t.signed.countP Token.isOperator + 1 := by
    rw [← hderives.size_eq, hu, size_unsigned]
  have hcount := t.countP_signed
  exact writable_of_signs ht (by omega)

/-- Reading the text of a tree gives an equal tree just if the numbers of the tree are finite and
have a clear sign bit, no name has a closing brace, and the tree is no higher than brackets may nest
and operations may be stacked. -/
theorem parseText_text_iff (limits : Limits) (t : Expr) :
    (∃ u, (parseText limits t.text).result = .ok u ∧ (u == t) = true) ↔
      t.Writable ∧ t.height ≤ limits.maxDepth ∧ t.height ≤ limits.maxHeight := by
  constructor
  · rintro ⟨u, h, he⟩
    have hw := writable_of_parseText h he
    obtain ⟨tokens, hscan, hparse⟩ := parseText_eq_ok_iff.mp h
    rw [(spells_text hw).scan] at hscan
    obtain rfl := Except.ok.inj hscan
    obtain ⟨hderives, hd, hh⟩ := derives_of_parse hparse
    obtain rfl := hderives.unique (derives_bracketed_sum t)
    rw [nesting_bracketed] at hd
    exact ⟨hw, hd, hh⟩
  · rintro ⟨hw, hd, hh⟩
    have h := parseText_eq_ok_iff.mpr ⟨_, (spells_text hw).scan, parse_bracketed hd hh⟩
    exact ⟨t, h, beq_self hw⟩

end Formulary.Expr
