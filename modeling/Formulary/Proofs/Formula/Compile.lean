import Formulary.Formula
import Formulary.Proofs.Expr.Climbing
import Formulary.Proofs.Token.Written

/-!
# Compiling by its parts

A text compiles if it splits into tokens and the parser accepts these; the formula then has the tree
of the parser and the names of the tokens (`exists_tokens_of_compile`). Once there are tokens, it is
the parser that decides (`compile_of_tokens`).
-/

namespace Formulary.Formula

variable {limits : Limits} {source : String} {tokens : List Token} {f : Formula}

theorem compile_of_tokens (h : (Token.tokenize source).result = .ok tokens) :
    (compile limits source).result = match (Expr.parse limits tokens).result with
      | .ok t => .ok ⟨source, t, Token.names tokens⟩
      | .error e => .error (.parse e) := by
  have hscan : ((Token.tokenize source).mapError CompileError.scan).result = .ok tokens :=
    Logged.result_mapError_eq_ok_iff.mpr h
  rw [compile, Logged.result_bind_ok hscan]
  cases hp : (Expr.parse limits tokens).result with
  | ok t =>
    rw [Logged.result_bind_ok (Logged.result_mapError_eq_ok_iff.mpr hp)]
    rfl
  | error e =>
    rw [Logged.result_bind_error (e := .parse e) (by rw [Logged.mapError, hp]; rfl)]

theorem exists_tokens_of_compile (h : (compile limits source).result = .ok f) :
    ∃ tokens, (Token.tokenize source).result = .ok tokens ∧
      (Expr.parse limits tokens).result = .ok f.tree ∧ f.source = source ∧
        f.required = Token.names tokens := by
  obtain ⟨tokens, hscan, -⟩ := Logged.result_bind_eq_ok_iff.mp h
  have htokens : (Token.tokenize source).result = .ok tokens :=
    Logged.result_mapError_eq_ok_iff.mp hscan
  rw [compile_of_tokens htokens] at h
  split at h <;> cases h
  exact ⟨tokens, htokens, ‹_›, rfl, rfl⟩

/-- An identifier is a formula, whatever the limits. -/
theorem compile_identifier {name : String} (h : Identifier.isValid name.toList) :
    (compile limits name).result = .ok ⟨name, .variable name, [name]⟩ := by
  have hscan : (Token.tokenize name).result = .ok [.variable name] := by
    have hname := (IsLexeme.identifier h).spells.scan
    rwa [String.ofList_toList, ← Token.result_tokenize] at hname
  have hparse : (Expr.parse limits [.variable name]).result = .ok (.variable name) :=
    Expr.parse_of_derives (.ofProduct (.ofPower (.ofAtom (.variable name)))) (Nat.zero_le _)
      (Nat.zero_le _)
  rw [compile_of_tokens hscan, hparse]
  rfl

end Formulary.Formula
