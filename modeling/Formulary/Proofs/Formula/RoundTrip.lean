import Formulary.Proofs.Expr.Equality
import Formulary.Proofs.Formula.Compile

/-!
# Compiling the text of a formula

The text of a compiled formula compiles again, to the same tree and the same variables, as long as
the tree is not higher than brackets may nest (`Formula.compile_text`). A higher tree is still
within its own limit, but its text has too many brackets, and compiling it fails with that error.
-/

namespace Formulary

namespace Formula

/-- Formulas with the same tree and the same variables differ in their sources alone. -/
theorem beq_iff_source_eq {f g : Formula} (ht : f.tree.Writable) (htree : g.tree = f.tree)
    (hreq : g.required = f.required) : (g == f) = true ↔ g.source = f.source := by
  show (g.source == f.source && (g.tree == f.tree && g.required == f.required)) = true ↔ _
  rw [htree, hreq, Expr.beq_self ht, beq_self_eq_true, Bool.and_true, Bool.and_true, beq_iff_eq]

/-! ## The text of a formula -/

variable {limits : Limits} {source : String} {f : Formula}

/-- The text of a tree from scanned tokens is scanned as the bracketed tokens of the tree. -/
theorem tokenize_text (h : (compile limits source).result = .ok f) :
    f.tree.Writable ∧ (Token.tokenize f.text).result = .ok f.tree.bracketed := by
  obtain ⟨tokens, hscan, hparse, -, -⟩ := exists_tokens_of_compile h
  rw [Token.result_tokenize, Token.scan_eq_ok_iff] at hscan
  obtain ⟨words, hsplit⟩ := hscan
  have hw := (Expr.derives_of_parse hparse).1.writable hsplit.writable
  rw [Token.result_tokenize]
  exact ⟨hw, (Expr.spells_text hw).scan⟩

/-- The text of a formula compiles to a formula that differs from it in the source alone, unless its
tree is higher than brackets may nest; then it is just that which is wrong with the text. -/
theorem compile_text (h : (compile limits source).result = .ok f) :
    (f.tree.height ≤ limits.maxDepth → ∃ g, (compile limits f.text).result = .ok g ∧
      g.tree = f.tree ∧ g.required = f.required ∧ ((g == f) = true ↔ source = f.text)) ∧
    (limits.maxDepth < f.tree.height →
      (compile limits f.text).result = .error (.parse (.nestingTooDeep limits.maxDepth))) := by
  obtain ⟨hw, htext⟩ := tokenize_text h
  obtain ⟨tokens, -, hparse, hsource, hreq⟩ := exists_tokens_of_compile h
  obtain ⟨hderives, -, hheight⟩ := Expr.derives_of_parse hparse
  rw [compile_of_tokens htext]
  constructor
  · intro hd
    have hnames : Token.names f.tree.bracketed = f.required := by
      rw [f.tree.derives_bracketed.names_eq, hreq, hderives.names_eq]
    rw [Expr.parse_bracketed hd hheight, hnames]
    refine ⟨_, rfl, rfl, rfl, ?_⟩
    rw [beq_iff_source_eq (g := ⟨f.text, f.tree, f.required⟩) hw rfl rfl, hsource]
    exact eq_comm
  · intro hd
    rw [Expr.parse_bracketed_eq_error hd hheight]

/-- A sum needs one pair of brackets in its text. -/
theorem compile_text_sum :
    (∃ g, (compile ⟨1, 1⟩ "(x + y)").result = .ok g ∧
      g.tree = .binary (.variable "x") .add (.variable "y") ∧ g.required = ["x", "y"] ∧
      ((g == ⟨"x+y", .binary (.variable "x") .add (.variable "y"), ["x", "y"]⟩) = true ↔
        "x+y" = "(x + y)")) ∧
    (compile ⟨0, 1⟩ "(x + y)").result = .error (.parse (.nestingTooDeep 0)) := by
  have hplus : Ends ['+', 'y'] := by
    rintro c ⟨⟩
    decide
  have hsplit : Split ['x', '+', 'y'] [['x'], ['+'], ['y']]
      [.variable "x", .operator .add, .variable "y"] [] :=
    .cons (w := ['x']) (.identifier rfl) (hplus.maximal _)
      (.cons (w := ['+']) (.operator .add) (maximal_cons rfl rfl)
        (.cons (w := ['y']) (.identifier rfl) (maximal_nil _) (.nil [])))
  have hscan : (Token.tokenize "x+y").result =
      .ok [.variable "x", .operator .add, .variable "y"] := by
    rw [Token.result_tokenize, Token.scan_eq_ok_iff]
    exact ⟨_, hsplit⟩
  have hcompile (maxDepth : Nat) : (compile ⟨maxDepth, 1⟩ "x+y").result =
      .ok ⟨"x+y", .binary (.variable "x") .add (.variable "y"), ["x", "y"]⟩ := by
    have hparse : (Expr.parse ⟨maxDepth, 1⟩ [.variable "x", .operator .add, .variable "y"]).result =
        .ok (.binary (.variable "x") .add (.variable "y")) :=
      Expr.parse_of_derives (.operation .add (.ofProduct (.ofPower (.ofAtom (.variable "x"))))
        (.ofPower (.ofAtom (.variable "y")))) (Nat.zero_le _) (Nat.le_refl 1)
    rw [compile_of_tokens hscan, hparse]
    rfl
  exact ⟨(compile_text (hcompile 1)).1 (Nat.le_refl 1), (compile_text (hcompile 0)).2 Nat.one_pos⟩

end Formula

end Formulary
