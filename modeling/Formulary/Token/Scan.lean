import Formulary.Logged
import Formulary.Token.Lexeme

/-!
# Scanning

`Token.scan` splits a text into lexemes from the left and keeps their tokens. `Token.tokenize` is
the same with log records.
-/

namespace Formulary.Token

/-- The tokens of a text that starts at `position`. -/
def scan (position : Nat) : List Char → Except ScanError (List Token)
  | [] => .ok []
  | c :: cs => do
    let lexeme ← Lexeme.take position c cs
    let tokens ← scan (position + 1 + lexeme.more) (cs.drop lexeme.more)
    return lexeme.token.toList ++ tokens
termination_by text => text.length
decreasing_by simp only [List.length_drop, List.length_cons]; omega

@[simp]
theorem scan_nil (position : Nat) : scan position [] = .ok [] := by
  rw [scan]

theorem scan_cons (position : Nat) (c : Char) (cs : List Char) :
    scan position (c :: cs) = (do
      let lexeme ← Lexeme.take position c cs
      let tokens ← scan (position + 1 + lexeme.more) (cs.drop lexeme.more)
      return lexeme.token.toList ++ tokens) := by
  rw [scan]

theorem scan_cons_of_take {position : Nat} {c : Char} {cs : List Char} {lexeme : Lexeme}
    (h : Lexeme.take position c cs = .ok lexeme) :
    scan position (c :: cs) =
      (scan (position + 1 + lexeme.more) (cs.drop lexeme.more)).map (lexeme.token.toList ++ ·) := by
  rw [scan_cons, h]
  show (scan (position + 1 + lexeme.more) (cs.drop lexeme.more) >>= _) = _
  cases scan (position + 1 + lexeme.more) (cs.drop lexeme.more) <;> rfl

theorem scan_cons_of_take_error {position : Nat} {c : Char} {cs : List Char} {e : ScanError}
    (h : Lexeme.take position c cs = .error e) : scan position (c :: cs) = .error e := by
  rw [scan_cons, h]
  rfl

/-- The tokens of a whole text. -/
def tokenize (text : String) : Logged ScanError (List Token) := do
  .emit (.scanning text)
  let tokens ← .ofExcept (scan 0 text.toList)
  .emit (.scanned tokens)
  return tokens

@[simp]
theorem result_tokenize (text : String) : (tokenize text).result = scan 0 text.toList := by
  unfold tokenize
  simp only [Logged.result_bind]
  show (scan 0 text.toList >>= fun tokens => .ok tokens) = _
  cases scan 0 text.toList <;> rfl

end Formulary.Token
