import Formulary.Proofs.Expr.Grammar

/-!
# What is due

To tell whether tokens can be continued to an expression it is enough to know what is due after
them, a value or an operator, and how many brackets are open. `Due.next` is the step for one token,
and `Due.read` reads a list. Nothing is said about trees or about how operators bind.

An expression leads from where a value is due to where an operator is due, at the same depth
(`Derives.read`). Two things can be seen of what is due: the last token tells whether it is a value
(`awaitsValue_of_read`), and the brackets of an expression are closed in it, so that the last open
bracket is the one before it (`Derives.head?_unclosed`).
-/

namespace Formulary

/-! ## Last tokens and open brackets -/

namespace Token

/-- Whether a value is due after the token. -/
def opensValue : Token → Bool
  | operator _ | openBracket => true
  | _ => false

/-- Whether a value is due after the tokens, which is so at the beginning and after an operator or
an opening bracket. -/
def awaitsValue (tokens : List Token) : Bool :=
  tokens.getLast?.all opensValue

/-- The places of the brackets that are open after some tokens, the innermost first, when the tokens
begin at `position` and the places in `opened` are open there. A closing bracket closes the
innermost one. -/
def unclosedFrom (position : Nat) (opened : List Nat) : List Token → List Nat
  | [] => opened
  | .openBracket :: ts => unclosedFrom (position + 1) (position :: opened) ts
  | .closeBracket :: ts => unclosedFrom (position + 1) opened.tail ts
  | _ :: ts => unclosedFrom (position + 1) opened ts

/-- The places of the opening brackets that no closing bracket matches, the last one first. -/
def unclosed (tokens : List Token) : List Nat :=
  unclosedFrom 0 [] tokens

theorem unclosedFrom_append (position : Nat) (opened : List Nat) (ts us : List Token) :
    unclosedFrom position opened (ts ++ us) =
      unclosedFrom (position + ts.length) (unclosedFrom position opened ts) us := by
  induction ts generalizing position opened with
  | nil => rfl
  | cons t ts ih =>
    have hposition : position + (t :: ts).length = position + 1 + ts.length := by
      rw [List.length_cons]
      omega
    rw [hposition, List.cons_append]
    cases t <;> exact ih (position + 1) _

end Token

/-! ## Reading tokens -/

/-- What is due, inside of `depth` open brackets. -/
inductive Due
  | value (depth : Nat)
  /-- An operator, or the bracket that closes the innermost one. -/
  | operator (depth : Nat)

namespace Due

/-- Whether it is a value that is due. -/
def isValue : Due → Bool
  | value _ => true
  | operator _ => false

/-- How many brackets are open. -/
def depth : Due → Nat
  | value depth => depth
  | operator depth => depth

/-- What is due after a token, if the token is not out of place. -/
def next : Due → Token → Option Due
  | value depth, .number _ => some (operator depth)
  | value depth, .variable _ => some (operator depth)
  | value depth, .openBracket => some (value (depth + 1))
  | operator depth, .operator _ => some (value depth)
  | operator (depth + 1), .closeBracket => some (operator depth)
  | _, _ => none

/-- What is due after some tokens. -/
def readFrom (due : Due) (ts : List Token) : Option Due :=
  ts.foldlM next due

/-- What is due after the first tokens of a list. -/
def read (ts : List Token) : Option Due :=
  readFrom (value 0) ts

variable {due due' : Due} {ts us : List Token} {t : Token}

theorem readFrom_append (due : Due) (ts us : List Token) :
    due.readFrom (ts ++ us) = due.readFrom ts >>= fun due' => due'.readFrom us :=
  List.foldlM_append

theorem read_append (h : read ts = some due) (us : List Token) :
    read (ts ++ us) = due.readFrom us := by
  rw [read, readFrom_append, show (value 0).readFrom ts = some due from h]
  rfl

theorem read_append_cons (h : read ts = some due) (t : Token) (us : List Token) :
    read (ts ++ t :: us) = due.next t >>= fun due' => due'.readFrom us := by
  rw [read_append h]
  rfl

theorem exists_of_read_append (h : read (ts ++ us) = some due) : ∃ due', read ts = some due' := by
  rw [read, readFrom_append, Option.bind_eq_bind, Option.bind_eq_some_iff] at h
  obtain ⟨due', hts, -⟩ := h
  exact ⟨due', hts⟩

theorem isValue_of_next (h : due.next t = some due') : due'.isValue = t.opensValue := by
  rcases due with d | _ | d <;> cases t <;> cases h <;> rfl

theorem depth_le_of_next (h : due.next t = some due') : due'.depth ≤ due.depth + 1 := by
  rcases due with d | _ | d <;> cases t <;> cases h <;> simp only [depth] <;> omega

theorem depth_le_of_readFrom (h : due.readFrom ts = some due') :
    due'.depth ≤ due.depth + ts.length := by
  induction ts generalizing due with
  | nil =>
    cases h
    exact Nat.le_refl _
  | cons t ts ih =>
    obtain ⟨due₁, hnext, h⟩ := Option.bind_eq_some_iff.mp h
    have hstep := depth_le_of_next hnext
    have hrest := ih h
    rw [List.length_cons]
    omega

/-- The last token shows whether a value is due. -/
theorem awaitsValue_of_read (h : read ts = some due) : Token.awaitsValue ts = due.isValue := by
  rcases List.eq_nil_or_concat ts with rfl | ⟨us, t, rfl⟩
  · cases h
    rfl
  · rw [List.concat_eq_append] at h ⊢
    obtain ⟨due', hus⟩ := exists_of_read_append h
    rw [read_append_cons hus] at h
    obtain ⟨due₁, hnext, h⟩ := Option.bind_eq_some_iff.mp h
    cases h
    rw [isValue_of_next hnext, Token.awaitsValue, List.getLast?_concat]
    rfl

/-- A last value and all closing brackets make up for what is due. -/
theorem exists_readFrom (due : Due) : ∃ us, due.readFrom us = some (operator 0) := by
  have hclose (depth : Nat) :
      (operator depth).readFrom (.replicate depth .closeBracket) = some (operator 0) := by
    induction depth with
    | zero => rfl
    | succ depth ih => exact ih
  cases due with
  | value depth => exact ⟨.number 0 :: .replicate depth .closeBracket, hclose depth⟩
  | operator depth => exact ⟨.replicate depth .closeBracket, hclose depth⟩

end Due

/-- From where a value is due, an expression leads to where an operator is due. -/
theorem Grammar.Derives.readFrom {c : Grammar.Category} {ts : List Token} {t : Expr}
    (h : Derives c ts t) (depth : Nat) :
    (Due.value depth).readFrom ts = some (.operator depth) := by
  induction h generalizing depth with
  | number x => rfl
  | «variable» name => rfl
  | brackets _ ih =>
    -- in front of the inner expression a value is due one bracket deeper
    show (Due.value (depth + 1)).readFrom (_ ++ [_]) = _
    rw [Due.readFrom_append, ih (depth + 1)]
    rfl
  | operation op _ _ ihl ihr =>
    rw [Due.readFrom_append, ihl depth]
    exact ihr depth
  | ofProduct _ ih | ofPower _ ih | ofAtom _ ih => exact ih depth

/-- Every bracket of an expression is closed in it. -/
theorem Grammar.Derives.unclosedFrom {c : Grammar.Category} {ts : List Token} {t : Expr}
    (h : Derives c ts t) (position : Nat) (opened : List Nat) :
    Token.unclosedFrom position opened ts = opened := by
  induction h generalizing position opened with
  | number x => rfl
  | «variable» name => rfl
  | brackets _ ih =>
    rw [Token.unclosedFrom, Token.unclosedFrom_append, ih]
    rfl
  | operation op _ _ ihl ihr =>
    rw [Token.unclosedFrom_append, ihl]
    exact ihr _ _
  | ofProduct _ ih | ofPower _ ih | ofAtom _ ih => exact ih position opened

/-- In front of an expression that runs to the end, the last open bracket is the one before it. -/
theorem Grammar.Derives.head?_unclosed {c : Grammar.Category} {us : List Token} {t : Expr}
    (h : Derives c us t) (ts : List Token) :
    (Token.unclosed (ts ++ .openBracket :: us)).head? = some ts.length := by
  rw [Token.unclosed, Token.unclosedFrom_append, Token.unclosedFrom, h.unclosedFrom, Nat.zero_add]
  rfl

end Formulary
