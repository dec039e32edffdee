import Formulary.Proofs.Token.Split

/-!
# Texts joined by a space

The scanner looks at most one character past a number or an identifier, and a space cannot go on
with either (`Ends`). So a text that splits into lexemes splits in the same way in front of a space
(`Split.before`), and the scan of a joined text is the scan of the first text followed by the scan
of the second one, whose positions are counted from further on (`Token.scan_add`). An error of the
first text stays as it is, unless it is an open brace, which the second text may close
(`Lexeme.take_append_eq_error`). `Token.tokenize_join` puts this together for whole texts.
-/

namespace Formulary

/-! ## What ends a lexeme -/

/-- A text that no number and no identifier goes on with. -/
def Ends (rest : List Char) : Prop :=
  ∀ c ∈ rest.head?, Identifier.isContinue c = false ∧ c ≠ '.'

theorem ends_space (text : List Char) : Ends (' ' :: text) := by
  rintro c ⟨⟩
  decide

theorem Ends.maximal {rest : List Char} (h : Ends rest) (w : List Char) : Maximal w rest := by
  intro c hc
  obtain ⟨hi, hp⟩ := h c hc
  refine ⟨fun _ ⟨n, hn, hw⟩ => ?_, fun hv hw => ?_⟩
  · have hmem : c ∈ n.chars := by rw [hw]; simp
    rcases hn.isDigit_or_eq_point c hmem with hd | hd
    · rw [Identifier.isContinue, Char.isAlphanum, hd, Bool.or_true] at hi
      cases hi
    · exact hp hd
  · rw [(isValid_append_iff hv).mp hw] at hi
    cases hi

theorem Maximal.append {w rest more : List Char} (h : Maximal w rest) (hm : Ends more) :
    Maximal w (rest ++ more) := by
  rcases rest with _ | ⟨c, cs⟩
  · exact hm.maximal w
  · exact h

namespace Split

variable {text rest : List Char} {ws : List (List Char)} {ts : List Token}

theorem append {rest' : List Char} {ws' : List (List Char)} {ts' : List Token}
    (h : Split text ws ts rest) (h' : Split rest ws' ts' rest') :
    Split text (ws ++ ws') (ts ++ ts') rest' := by
  induction h with
  | nil => exact h'
  | cons hw hm _ ih =>
    rw [List.append_assoc]
    exact .cons hw hm (ih h')

/-- A split stays as it is in front of what ends its last lexeme. -/
theorem before (h : Split text ws ts rest) {more : List Char} (hm : Ends more) :
    Split (text ++ more) ws ts (rest ++ more) := by
  induction h with
  | nil rest => exact .nil _
  | cons hw hmax _ ih =>
    rw [List.append_assoc]
    exact .cons hw (hmax.append hm) ih

end Split

/-! ## Counting positions from further on -/

/-- The error `k` characters further on. -/
def ScanError.shift (k : Nat) : ScanError → ScanError
  | unexpectedCharacter c position => unexpectedCharacter c (position + k)
  | unterminatedBrace position => unterminatedBrace (position + k)
  | invalidNumber text position => invalidNumber text (position + k)

namespace Lexeme

theorem takeNumber_add (position k : Nat) (text : List Char) :
    takeNumber (position + k) text = (takeNumber position text).mapError (ScanError.shift k) := by
  unfold takeNumber
  dsimp only
  split <;> rfl

theorem takeBraced_add (position k : Nat) (cs : List Char) :
    takeBraced (position + k) cs = (takeBraced position cs).mapError (ScanError.shift k) := by
  unfold takeBraced
  dsimp only
  split <;> rfl

theorem takeSymbol_add (position k : Nat) (c : Char) :
    takeSymbol (position + k) c = (takeSymbol position c).mapError (ScanError.shift k) := by
  unfold takeSymbol
  split
  · rfl
  split
  · rfl
  split <;> rfl

theorem take_add (position k : Nat) (c : Char) (cs : List Char) :
    take (position + k) c cs = (take position c cs).mapError (ScanError.shift k) := by
  unfold take
  split
  · rfl
  split
  · exact takeNumber_add position k (c :: cs)
  split
  · rfl
  split
  · exact takeBraced_add position k cs
  · exact takeSymbol_add position k c

section Failures

variable {position : Nat} {c : Char} {cs more : List Char} {e : ScanError}

/-- A brace that is open stays open in front of a text that does not close it. -/
theorem takeBraced_append_eq_error (h : takeBraced position cs = .error e)
    (hbrace : ∀ p, e = .unterminatedBrace p → '\x7d' ∉ more) :
    takeBraced position (cs ++ more) = .error e := by
  rcases takeBraced_eq position cs with ⟨name, rest, -, -, ht⟩ | ⟨hopen, ht⟩ <;> rw [ht] at h <;>
    cases h
  rcases takeBraced_eq position (cs ++ more) with ⟨name, rest, -, hclosed, -⟩ | ⟨-, ht'⟩
  · have hmem : '\x7d' ∈ cs ++ more := by rw [hclosed]; simp
    exact absurd hmem (by simp [hopen, hbrace position rfl])
  · exact ht'

/-- Where no lexeme is cut off, none is cut off from a longer text that only goes on with what ends
a lexeme and closes no brace. -/
theorem take_append_eq_error (h : take position c cs = .error e) (hm : Ends more)
    (hbrace : ∀ p, e = .unterminatedBrace p → '\x7d' ∉ more) :
    take position c (cs ++ more) = .error e := by
  unfold take at h ⊢
  by_cases hspace : c = ' '
  · rw [if_pos hspace] at h
    cases h
  rw [if_neg hspace] at h ⊢
  by_cases hd : c.isDigit
  · -- the numeral ends before `more`, with the same value
    obtain ⟨n, ds, rest, hn, hc, rfl, hmax⟩ := exists_numeral cs hd
    rw [← hc] at hmax
    rw [if_pos hd, ← List.cons_append, ← hc, takeNumber_append hn hmax] at h
    rw [if_pos hd, List.append_assoc, ← List.cons_append, ← hc,
      takeNumber_append hn (hmax.append hm)]
    exact h
  rw [if_neg hd] at h ⊢
  by_cases hs : Identifier.isStart c
  · rw [if_pos hs] at h
    cases h
  rw [if_neg hs] at h ⊢
  by_cases hb : c = '\x7b'
  · rw [if_pos hb] at h ⊢
    exact takeBraced_append_eq_error h hbrace
  · rwa [if_neg hb] at h ⊢

end Failures

end Lexeme

namespace Token

theorem scan_space (position : Nat) (text : List Char) :
    scan position (' ' :: text) = scan (position + 1) text := by
  have htake : Lexeme.take position ' ' text = .ok ⟨none, 0⟩ := rfl
  rw [scan_cons_of_take htake]
  show (scan (position + 1) text).map _ = _
  cases scan (position + 1) text <;> rfl

/-- Where a text stands changes the position of its error and nothing else. -/
theorem scan_add (position k : Nat) (text : List Char) :
    scan (position + k) text = (scan position text).mapError (ScanError.shift k) := by
  induction position, text using scan.induct with
  | case1 position =>
    rw [scan_nil, scan_nil]
    rfl
  | case2 position c cs ih =>
    have htake := Lexeme.take_add position k c cs
    rcases ht : Lexeme.take position c cs with e | lexeme <;> rw [ht] at htake
    · rw [scan_cons_of_take_error htake, scan_cons_of_take_error ht]
      rfl
    · have hposition : position + k + 1 + lexeme.more = position + 1 + lexeme.more + k := by omega
      rw [scan_cons_of_take htake, scan_cons_of_take ht, hposition, ih lexeme]
      cases scan (position + 1 + lexeme.more) (cs.drop lexeme.more) <;> rfl

variable {text more : List Char} {ts : List Token} {e : ScanError}

/-- A text that was scanned goes on with the scan of what is behind it. -/
theorem scan_append (h : scan 0 text = .ok ts) (hm : Ends more) :
    scan 0 (text ++ more) = (scan text.length more).map (ts ++ ·) := by
  obtain ⟨ws, hs⟩ := scan_eq_ok_iff.mp h
  have hwords : ws.flatten = text := by simpa using hs.flatten_append
  rw [(hs.before hm).scan_eq 0, hwords, Nat.zero_add, List.nil_append]

/-- A text that was scanned goes on behind a space with the scan of the other text, as many
characters further on as stand before that. -/
theorem scan_append_space (h : scan 0 text = .ok ts) (more : List Char) :
    scan 0 (text ++ ' ' :: more) =
      ((scan 0 more).mapError (ScanError.shift (text.length + 1))).map (ts ++ ·) := by
  rw [scan_append h (ends_space more), scan_space, ← scan_add, Nat.zero_add]

/-- What is behind an error is not looked at, but for the brace that closes an open one. -/
theorem scan_append_eq_error (h : scan 0 text = .error e) (hm : Ends more)
    (hbrace : ∀ p, e = .unterminatedBrace p → '\x7d' ∉ more) :
    scan 0 (text ++ more) = .error e := by
  obtain ⟨ws, ts, rest, hs, rfl | ⟨c, cs, e', rfl, he⟩⟩ := exists_split 0 text
  · rw [hs.scan_eq 0, scan_nil] at h
    cases h
  · rw [hs.scan_eq 0, scan_cons_of_take_error he] at h
    cases h
    rw [(hs.before hm).scan_eq 0, List.cons_append,
      scan_cons_of_take_error (Lexeme.take_append_eq_error he hm hbrace)]
    rfl

/-! ## Two texts -/

/-- The tokens of two texts joined by a space are those of the first text and then those of the
second. If only the first text has tokens, the error is that of the second text, as many characters
further on as stand before it. If the first text has none, its error is that of the joined text,
unless it is an open brace and a brace of the second text closes it. -/
theorem tokenize_join (a b : String) :
    (∀ ts, (tokenize a).result = .ok ts →
      (∀ us, (tokenize b).result = .ok us → (tokenize (a ++ " " ++ b)).result = .ok (ts ++ us)) ∧
      ∀ e, (tokenize b).result = .error e →
        (tokenize (a ++ " " ++ b)).result = .error (e.shift (a.length + 1))) ∧
    ∀ e, (tokenize a).result = .error e →
      ((∃ position, e = .unterminatedBrace position) → '\x7d' ∉ b.toList) →
        (tokenize (a ++ " " ++ b)).result = .error e := by
  have hjoin : (a ++ " " ++ b).toList = a.toList ++ ' ' :: b.toList := by simp
  simp only [result_tokenize, hjoin]
  refine ⟨fun ts ha => ⟨fun us hb => ?_, fun e hb => ?_⟩, fun e ha hbrace => ?_⟩
  · rw [scan_append_space ha, hb]
    rfl
  · rw [scan_append_space ha, hb, String.length_toList]
    rfl
  · refine scan_append_eq_error ha (ends_space _) fun position he => ?_
    simpa using hbrace ⟨position, he⟩

/-- A space between an operator and what follows it, and behind a brace that stays open. -/
theorem tokenize_join_operator :
    (tokenize "x+").result = .ok [.variable "x", .operator .add] ∧
    (tokenize ("x+" ++ " " ++ "y")).result = .ok [.variable "x", .operator .add, .variable "y"] ∧
    (tokenize "y $").result = .error (.unexpectedCharacter '$' 2) ∧
    (tokenize ("x+" ++ " " ++ "y $")).result = .error (.unexpectedCharacter '$' 5) ∧
    (tokenize "x\x7by").result = .error (.unterminatedBrace 1) ∧
    (tokenize ("x\x7by" ++ " " ++ "z")).result = .error (.unterminatedBrace 1) := by
  have hsum : (tokenize "x+").result = .ok [.variable "x", .operator .add] := by
    with_unfolding_all rfl
  have hname : (tokenize "y").result = .ok [.variable "y"] := by
    with_unfolding_all rfl
  have hsign : (tokenize "y $").result = .error (.unexpectedCharacter '$' 2) := by
    with_unfolding_all rfl
  have hopen : (tokenize "x\x7by").result = .error (.unterminatedBrace 1) := by
    with_unfolding_all rfl
  have hjoined := ((tokenize_join "x+" "y").1 _ hsum).1 _ hname
  have hfailed := ((tokenize_join "x+" "y $").1 _ hsum).2 _ hsign
  have hstill := (tokenize_join "x\x7by" "z").2 _ hopen fun _ => by decide
  exact ⟨hsum, hjoined, hsign, hfailed, hopen, hstill⟩

end Token

end Formulary
