import Formulary.Proofs.Number.Numeral
import Formulary.Token.Scan

/-!
# Splitting a text into lexemes

`IsLexeme w token` lists the lexemes and what they stand for, and `Split text words tokens rest`
says that `text` consists of the lexemes `words`, none of which goes on with the character after it,
and of a `rest`. The scanner computes this relation:

* a lexeme that does not go on is what `Lexeme.take` cuts off (`take_append`), and whatever it cuts
  off is such a lexeme (`isLexeme_of_take`), so that a text splits in one way only;
* where it fails, there is a `Fault`, and no lexeme begins there.

`tokenize_eq_iff_split` puts this together for whole texts, with the error at the end of the longest
beginning that splits.
-/

namespace Formulary

/-! ## Lexemes -/

/-- `IsLexeme w token` says that the characters `w` are a lexeme, and which token it stands for. The
space stands for none. -/
inductive IsLexeme : List Char → Option Token → Prop
  | space : IsLexeme [' '] none
  | openBracket : IsLexeme ['('] (some .openBracket)
  | closeBracket : IsLexeme [')'] (some .closeBracket)
  | operator (op : Operator) : IsLexeme [op.symbol] (some (.operator op))
  | number {w : List Char} {x : Float} (hw : IsNumeral w)
      (hx : Number.read (String.ofList w) = .ok x) (hf : Number.IsFinite x) :
      IsLexeme w (some (.number x))
  | identifier {w : List Char} (hw : Identifier.isValid w) :
      IsLexeme w (some (.variable (String.ofList w)))
  | braced {name : List Char} (hn : '\x7d' ∉ name) :
      IsLexeme ('\x7b' :: (name ++ ['\x7d'])) (some (.variable (String.ofList name)))

/-- The lexeme `w` in front of `rest` could not be longer: if it is a number or an identifier, it is
none with the next character. -/
def Maximal (w rest : List Char) : Prop :=
  ∀ c ∈ rest.head?, (IsNumeral w → ¬ IsNumeral (w ++ [c])) ∧
    (Identifier.isValid w → ¬ Identifier.isValid (w ++ [c]))

/-- `Split text words tokens rest` says that `text` consists of the maximal lexemes `words`, which
stand for `tokens`, and `rest`. -/
inductive Split : List Char → List (List Char) → List Token → List Char → Prop
  | nil (rest : List Char) : Split rest [] [] rest
  | cons {w rest rest' : List Char} {token : Option Token} {ws : List (List Char)}
      {ts : List Token} (hw : IsLexeme w token) (hm : Maximal w rest) (h : Split rest ws ts rest') :
      Split (w ++ rest) (w :: ws) (token.toList ++ ts) rest'

/-- A text begins with a numeral, the longest one there, whose value is beyond the largest float. -/
def TooLarge (text w : List Char) : Prop :=
  ∃ rest x, text = w ++ rest ∧ IsNumeral w ∧ Maximal w rest ∧
    Number.read (String.ofList w) = .ok x ∧ ¬ Number.IsFinite x

/-- A text begins with an opening brace that is never closed. -/
def Unterminated (text : List Char) : Prop :=
  ∃ name, text = '\x7b' :: name ∧ '\x7d' ∉ name

/-- The error at a position where the text `rest` begins, which does not begin with a lexeme. -/
def Fault (position : Nat) (rest : List Char) : ScanError → Prop
  | .invalidNumber text p => p = position ∧ ∃ w, text = String.ofList w ∧ TooLarge rest w
  | .unterminatedBrace p => p = position ∧ Unterminated rest
  | .unexpectedCharacter c p => p = position ∧ rest.head? = some c ∧ (∀ w, ¬ TooLarge rest w) ∧
    ¬ Unterminated rest

/-! ## Lexemes that do not go on -/

theorem not_isDigit_of_isStart {c : Char} (h : Identifier.isStart c) : c.isDigit = false := by
  have hletters : ((decide ('A'.toNat ≤ c.toNat ∧ c.toNat ≤ 'Z'.toNat) ||
      decide ('a'.toNat ≤ c.toNat) && decide (c.toNat ≤ 'z'.toNat)) || c == '_') = true := h
  rw [Bool.eq_false_iff]
  intro hd
  obtain ⟨hlo, hhi⟩ := Char.isDigit_iff_toNat.mp hd
  simp only [Bool.or_eq_true, Bool.and_eq_true, decide_eq_true_eq, beq_iff_eq] at hletters
  have h0 : '9'.toNat < 'A'.toNat ∧ 'A'.toNat < 'a'.toNat := by decide
  rcases hletters with (h | h) | rfl
  · omega
  · omega
  · exact absurd hhi (by decide)

theorem isValid_cons {c : Char} {cs : List Char} :
    Identifier.isValid (c :: cs) ↔ Identifier.isStart c ∧ ∀ d ∈ cs, Identifier.isContinue d := by
  simp [Identifier.isValid]

theorem isValid_append_iff {w : List Char} (h : Identifier.isValid w) {c : Char} :
    Identifier.isValid (w ++ [c]) ↔ Identifier.isContinue c := by
  rcases w with _ | ⟨d, ds⟩
  · cases h
  · rw [isValid_cons] at h
    simp only [List.cons_append, isValid_cons, List.mem_append, List.mem_singleton]
    exact ⟨fun hc => hc.2 c (.inr rfl), fun hc => ⟨h.1, fun x hx => hx.elim (h.2 x) (· ▸ hc)⟩⟩

theorem IsNumeral.exists_cons {w : List Char} (h : IsNumeral w) :
    ∃ c cs, w = c :: cs ∧ c.isDigit := by
  obtain ⟨n, hn, rfl⟩ := h
  exact hn.exists_cons

theorem TooLarge.isDigit {c : Char} {cs w : List Char} (h : TooLarge (c :: cs) w) : c.isDigit := by
  obtain ⟨rest, x, he, hw, -⟩ := h
  obtain ⟨d, ds, rfl, hd⟩ := hw.exists_cons
  obtain ⟨rfl, -⟩ := List.cons.inj he
  exact hd

/-- The first character tells numbers from identifiers. -/
theorem IsNumeral.not_isValid {w : List Char} (h : IsNumeral w) : ¬ Identifier.isValid w := by
  obtain ⟨c, cs, rfl, hc⟩ := h.exists_cons
  intro hv
  rw [not_isDigit_of_isStart (isValid_cons.mp hv).1] at hc
  cases hc

theorem maximal_nil (w : List Char) : Maximal w [] :=
  nofun

theorem maximal_numeral_iff {n : Numeral} (h : n.Valid) {rest : List Char} :
    Maximal n.chars rest ↔ ∀ c ∈ rest.head?, ¬ n.Extends c := by
  have hn : IsNumeral n.chars := ⟨n, h, rfl⟩
  simp [Maximal, h.isNumeral_append_iff, hn, hn.not_isValid]

theorem maximal_identifier_iff {w : List Char} (h : Identifier.isValid w) {rest : List Char} :
    Maximal w rest ↔ ∀ c ∈ rest.head?, ¬ Identifier.isContinue c := by
  have hn : ¬ IsNumeral w := fun hn => hn.not_isValid h
  simp [Maximal, isValid_append_iff h, h, hn]

theorem maximal_cons {c : Char} {cs rest : List Char} (hd : c.isDigit = false)
    (hs : Identifier.isStart c = false) : Maximal (c :: cs) rest := by
  refine fun _ _ => ⟨fun hn => ?_, fun hv => ?_⟩
  · obtain ⟨d, ds, h, hd'⟩ := hn.exists_cons
    cases h
    rw [hd] at hd'
    cases hd'
  · rw [(isValid_cons.mp hv).1] at hs
    cases hs

/-- A text begins with at most one longest numeral. -/
theorem IsNumeral.unique {w w' rest rest' : List Char} (h : IsNumeral w) (hm : Maximal w rest)
    (h' : IsNumeral w') (hm' : Maximal w' rest') (he : w ++ rest = w' ++ rest') : w = w' := by
  obtain ⟨n, hn, rfl⟩ := h
  obtain ⟨n', hn', rfl⟩ := h'
  have ht := hn.take_chars_append ((maximal_numeral_iff hn).mp hm)
  rw [he, hn'.take_chars_append ((maximal_numeral_iff hn').mp hm')] at ht
  rw [(Prod.mk.inj ht).1]

/-! ## The scanner's lexemes -/

namespace Lexeme

theorem takeNumber_append {n : Numeral} {rest : List Char} (hn : n.Valid)
    (hm : Maximal n.chars rest) (position : Nat) :
    takeNumber position (n.chars ++ rest) =
      if n.decimal.nearest < Number.infinity then
        .ok ⟨some (.number n.decimal.toFloat), n.chars.length - 1⟩
      else .error (.invalidNumber (String.ofList n.chars) position) := by
  rw [takeNumber, hn.take_chars_append ((maximal_numeral_iff hn).mp hm)]

/-- A lexeme that does not go on is cut off. -/
theorem take_append {w rest : List Char} {token : Option Token} (hw : IsLexeme w token)
    (hm : Maximal w rest) (position : Nat) :
    ∃ c cs, w = c :: cs ∧ take position c (cs ++ rest) = .ok ⟨token, cs.length⟩ := by
  cases hw with
  | space => exact ⟨_, _, rfl, rfl⟩
  | openBracket => exact ⟨_, _, rfl, rfl⟩
  | closeBracket => exact ⟨_, _, rfl, rfl⟩
  | operator op => exact ⟨_, _, rfl, by cases op <;> rfl⟩
  | @number w x hn hx hf =>
    obtain ⟨n, hn, rfl⟩ := hn
    obtain ⟨c, cs, hc, hd⟩ := hn.exists_cons
    have hs : c ≠ ' ' := by rintro rfl; cases hd
    rw [hn.read_chars] at hx
    obtain rfl := Except.ok.inj hx
    have ht := takeNumber_append hn hm position
    rw [if_pos (Decimal.isFinite_toFloat_iff.mp hf), hc] at ht
    exact ⟨c, cs, hc, by rw [take, if_neg hs, if_pos hd]; exact ht⟩
  | @identifier w hv =>
    rcases w with _ | ⟨c, cs⟩
    · cases hv
    · have hc := isValid_cons.mp hv
      have hs : c ≠ ' ' := by rintro rfl; cases hc.1
      have hd := not_isDigit_of_isStart hc.1
      refine ⟨c, cs, rfl, ?_⟩
      rw [take, if_neg hs, if_neg (by simp [hd]), if_pos hc.1, takeIdentifier,
        takeWhile_append_of_head hc.2 ((maximal_identifier_iff hv).mp hm)]
  | @braced name hn =>
    have hall : ∀ c ∈ name, (fun c => decide (c ≠ '\x7d')) c := by
      intro c hc
      simp only [decide_eq_true_eq]
      rintro rfl
      exact hn hc
    refine ⟨_, _, rfl, ?_⟩
    show takeBraced position (name ++ ['\x7d'] ++ rest) = _
    rw [takeBraced, List.append_assoc, takeWhile_append_of_head hall (by simp)]
    simp

/-- A text that begins with a digit begins with a longest numeral. -/
theorem exists_numeral {c : Char} (cs : List Char) (hc : c.isDigit) :
    ∃ n : Numeral, ∃ ds rest, n.Valid ∧ n.chars = c :: ds ∧ cs = ds ++ rest ∧
      Maximal (c :: ds) rest := by
  have hn : (Numeral.take (c :: cs)).1.Valid := Numeral.valid_take hc
  have hm := (maximal_numeral_iff hn).mpr (Numeral.not_extends_take (c :: cs))
  have ht := Numeral.chars_take (c :: cs)
  obtain ⟨d, ds, hds, -⟩ := hn.exists_cons
  rw [hds] at ht hm
  obtain ⟨rfl, hcs⟩ := List.cons.inj ht
  exact ⟨_, ds, _, hn, hds, hcs.symm, hm⟩

/-- A name in braces ends at the first closing brace, if there is one. -/
theorem takeBraced_eq (position : Nat) (cs : List Char) :
    (∃ name rest, '\x7d' ∉ name ∧ cs = name ++ '\x7d' :: rest ∧ takeBraced position cs =
      .ok ⟨some (.variable (String.ofList name)), name.length + 1⟩) ∨
    '\x7d' ∉ cs ∧ takeBraced position cs = .error (.unterminatedBrace position) := by
  have hall : '\x7d' ∉ cs.takeWhile (· ≠ '\x7d') := fun h => by
    simpa using List.all_eq_true.mp List.all_takeWhile _ h
  have hsplit := List.takeWhile_append_dropWhile (p := (· ≠ '\x7d')) (l := cs)
  rcases hrest : cs.dropWhile (· ≠ '\x7d') with _ | ⟨d, rest⟩
  · rw [hrest, List.append_nil] at hsplit
    rw [hsplit] at hall
    exact .inr ⟨hall, by rw [takeBraced, if_neg (by rw [hsplit]; exact Nat.lt_irrefl _)]⟩
  · have hd : d = '\x7d' := by
      have hhead : d ∈ (cs.dropWhile (· ≠ '\x7d')).head? := by rw [hrest]; rfl
      simpa using not_of_mem_head?_dropWhile d hhead
    rw [hrest, hd] at hsplit
    refine .inl ⟨_, rest, hall, hsplit.symm, ?_⟩
    have hlt : (cs.takeWhile (· ≠ '\x7d')).length < cs.length := by
      have := congrArg List.length hsplit
      simp only [List.length_append, List.length_cons] at this
      omega
    rw [takeBraced, if_pos hlt]

theorem takeSymbol_eq (position : Nat) (c : Char) :
    (∃ token, IsLexeme [c] token ∧ takeSymbol position c = .ok ⟨token, 0⟩) ∨
      takeSymbol position c = .error (.unexpectedCharacter c position) := by
  unfold takeSymbol
  split
  case isTrue h => exact .inl ⟨_, h ▸ .openBracket, rfl⟩
  split
  case isTrue h => exact .inl ⟨_, h ▸ .closeBracket, rfl⟩
  split
  case h_1 op h => exact .inl ⟨_, Operator.ofSymbol?_eq_some_iff.mp h ▸ .operator op, rfl⟩
  case h_2 => exact .inr rfl

/-- What is cut off is a lexeme that does not go on. -/
theorem isLexeme_of_take {position : Nat} {c : Char} {cs : List Char} {l : Lexeme}
    (h : take position c cs = .ok l) :
    ∃ ds rest, cs = ds ++ rest ∧ l.more = ds.length ∧ IsLexeme (c :: ds) l.token ∧
      Maximal (c :: ds) rest := by
  unfold take at h
  split at h
  case isTrue hc =>
    cases h
    subst hc
    exact ⟨[], cs, rfl, rfl, .space, maximal_cons rfl rfl⟩
  split at h
  case isTrue hd =>
    obtain ⟨n, ds, rest, hn, hc, rfl, hm⟩ := exists_numeral cs hd
    rw [← List.cons_append, ← hc, takeNumber_append hn (hc ▸ hm)] at h
    split at h <;> cases h
    refine ⟨ds, rest, rfl, by simp [hc], ?_, hm⟩
    rw [← hc]
    exact .number ⟨n, hn, rfl⟩ hn.read_chars (Decimal.isFinite_toFloat_iff.mpr ‹_›)
  split at h
  case isTrue hs =>
    cases h
    have hv : Identifier.isValid (c :: cs.takeWhile Identifier.isContinue) :=
      isValid_cons.mpr ⟨hs, fun d hd => List.all_eq_true.mp List.all_takeWhile d hd⟩
    exact ⟨_, _, List.takeWhile_append_dropWhile.symm, rfl, .identifier hv,
      (maximal_identifier_iff hv).mpr not_of_mem_head?_dropWhile⟩
  split at h
  case isTrue hb =>
    subst hb
    rcases takeBraced_eq position cs with ⟨name, rest, hn, rfl, ht⟩ | ⟨-, ht⟩ <;> rw [ht] at h <;>
      cases h
    exact ⟨name ++ ['\x7d'], rest, by simp, by simp, .braced hn, maximal_cons rfl rfl⟩
  case isFalse hd hs _ =>
    rcases takeSymbol_eq position c with ⟨token, hl, ht⟩ | ht <;> rw [ht] at h <;> cases h
    exact ⟨[], cs, rfl, rfl, hl, maximal_cons (by simpa using hd) (by simpa using hs)⟩

/-- Where no lexeme is cut off, the error is the fault of the text. -/
theorem fault_of_take {position : Nat} {c : Char} {cs : List Char} {e : ScanError}
    (h : take position c cs = .error e) : Fault position (c :: cs) e := by
  unfold take at h
  split at h
  · cases h
  split at h
  case isTrue hd =>
    obtain ⟨n, ds, rest, hn, hc, rfl, hm⟩ := exists_numeral cs hd
    rw [← List.cons_append, ← hc, takeNumber_append hn (hc ▸ hm)] at h
    split at h <;> cases h
    refine ⟨rfl, n.chars, rfl, rest, n.decimal.toFloat, by rw [hc]; rfl, ⟨n, hn, rfl⟩, hc ▸ hm,
      hn.read_chars, ?_⟩
    rwa [Decimal.isFinite_toFloat_iff]
  split at h
  · cases h
  split at h
  case isTrue hb =>
    subst hb
    rcases takeBraced_eq position cs with ⟨name, rest, hn, rfl, ht⟩ | ⟨hn, ht⟩ <;> rw [ht] at h <;>
      cases h
    exact ⟨rfl, cs, rfl, hn⟩
  case isFalse hd _ hb =>
    rcases takeSymbol_eq position c with ⟨token, hl, ht⟩ | ht <;> rw [ht] at h <;> cases h
    refine ⟨rfl, rfl, fun w hw => hd ?_, fun ⟨name, hu, _⟩ => hb (List.cons.inj hu).1⟩
    exact hw.isDigit

end Lexeme

/-- A text begins with at most one lexeme that does not go on. -/
theorem IsLexeme.unique {w w' rest rest' : List Char} {token token' : Option Token}
    (h : IsLexeme w token) (hm : Maximal w rest) (h' : IsLexeme w' token')
    (hm' : Maximal w' rest') (he : w ++ rest = w' ++ rest') : w = w' ∧ token = token' := by
  obtain ⟨c, cs, rfl, ht⟩ := Lexeme.take_append h hm 0
  obtain ⟨c', cs', rfl, ht'⟩ := Lexeme.take_append h' hm' 0
  rw [List.cons_append, List.cons_append, List.cons.injEq] at he
  obtain ⟨rfl, hcs⟩ := he
  rw [hcs, ht'] at ht
  obtain ⟨rfl, hlen⟩ := Lexeme.mk.inj (Except.ok.inj ht)
  rw [(List.append_inj hcs hlen.symm).1]
  exact ⟨rfl, rfl⟩

/-- There is at most one fault at a position. -/
theorem Fault.unique {position : Nat} {rest : List Char} {e e' : ScanError}
    (h : Fault position rest e) (h' : Fault position rest e') : e = e' := by
  have apart {w : List Char} (hl : TooLarge rest w) : ¬ Unterminated rest := by
    rintro ⟨name, rfl, -⟩
    cases hl.isDigit
  rcases e with ⟨c, p⟩ | p | ⟨text, p⟩ <;> rcases e' with ⟨c', p'⟩ | p' | ⟨text', p'⟩ <;>
    obtain ⟨rfl, h⟩ := h <;> obtain ⟨rfl, h'⟩ := h'
  case unexpectedCharacter.unexpectedCharacter =>
    rw [Option.some.inj (h.1.symm.trans h'.1)]
  case unexpectedCharacter.unterminatedBrace => exact absurd h' h.2.2
  case unexpectedCharacter.invalidNumber =>
    obtain ⟨w, -, hw⟩ := h'
    exact absurd hw (h.2.1 w)
  case unterminatedBrace.unexpectedCharacter => exact absurd h h'.2.2
  case unterminatedBrace.unterminatedBrace => rfl
  case unterminatedBrace.invalidNumber =>
    obtain ⟨w, -, hw⟩ := h'
    exact absurd h (apart hw)
  case invalidNumber.unexpectedCharacter =>
    obtain ⟨w, -, hw⟩ := h
    exact absurd hw (h'.2.1 w)
  case invalidNumber.unterminatedBrace =>
    obtain ⟨w, -, hw⟩ := h
    exact absurd h' (apart hw)
  case invalidNumber.invalidNumber =>
    obtain ⟨w, rfl, rest', x, he, hw, hm, -⟩ := h
    obtain ⟨w', rfl, rest'', x', he', hw', hm', -⟩ := h'
    rw [hw.unique hm hw' hm' (he.symm.trans he')]

/-! ## Splits -/

namespace Split

variable {text rest rest' : List Char} {ws ws' : List (List Char)} {ts ts' : List Token}

theorem flatten_append (h : Split text ws ts rest) : ws.flatten ++ rest = text := by
  induction h with
  | nil rest => rfl
  | cons _ _ _ ih => rw [List.flatten_cons, List.append_assoc, ih]

theorem length_le (h : Split text ws ts rest) : rest.length ≤ text.length := by
  rw [← h.flatten_append, List.length_append]
  exact Nat.le_add_left _ _

/-- A split that leaves as much as there was has no words. -/
theorem eq_nil (h : Split text ws ts rest) (hl : text.length ≤ rest.length) :
    ws = [] ∧ ts = [] ∧ text = rest := by
  cases h with
  | nil => exact ⟨rfl, rfl, rfl⟩
  | cons hw hm h =>
    obtain ⟨c, cs, rfl, -⟩ := Lexeme.take_append hw hm 0
    have := h.length_le
    simp only [List.cons_append, List.length_cons, List.length_append] at hl
    omega

/-- Of two splits of one text, one goes on where the other ends. -/
theorem exists_append (h' : Split text ws' ts' rest') (h : Split text ws ts rest)
    (hl : rest.length ≤ rest'.length) :
    ∃ vs us, Split rest' vs us rest ∧ ws = ws' ++ vs ∧ ts = ts' ++ us := by
  induction h' generalizing ws ts with
  | nil rest' => exact ⟨ws, ts, h, rfl, rfl⟩
  | @cons w r r' token ws' ts' hw hm h' ih =>
    generalize htext : w ++ r = text at h
    cases h with
    | nil =>
      have := ((Split.cons hw hm h').eq_nil (htext ▸ hl)).1
      cases this
    | @cons w₂ r₂ _ token₂ ws₂ ts₂ hw₂ hm₂ h₂ =>
      obtain ⟨rfl, rfl⟩ := hw.unique hm hw₂ hm₂ htext
      obtain rfl := List.append_cancel_left htext
      obtain ⟨vs, us, hs, rfl, rfl⟩ := ih h₂ hl
      exact ⟨vs, us, hs, rfl, by rw [List.append_assoc]⟩

/-- Two splits of one text that leave equally much are the same. -/
theorem unique (h : Split text ws ts rest) (h' : Split text ws' ts' rest')
    (hl : rest.length = rest'.length) : ws = ws' ∧ ts = ts' ∧ rest = rest' := by
  obtain ⟨vs, us, hs, rfl, rfl⟩ := h'.exists_append h (Nat.le_of_eq hl)
  obtain ⟨rfl, rfl, rfl⟩ := hs.eq_nil (Nat.le_of_eq hl.symm)
  simp

/-- Where no lexeme is cut off, no split goes on. -/
theorem length_le_of_take {c : Char} {cs : List Char} {position : Nat} {e : ScanError}
    (h : Split text ws ts (c :: cs)) (ht : Lexeme.take position c cs = .error e)
    (h' : Split text ws' ts' rest') : (c :: cs).length ≤ rest'.length := by
  rcases Nat.le_total (c :: cs).length rest'.length with hl | hl
  · exact hl
  obtain ⟨vs, us, hs, -, -⟩ := h.exists_append h' hl
  generalize htext : c :: cs = text at hs
  cases hs with
  | nil => exact Nat.le_refl _
  | cons hw hm _ =>
    obtain ⟨d, ds, rfl, htake⟩ := Lexeme.take_append hw hm position
    rw [List.cons_append, List.cons.injEq] at htext
    obtain ⟨rfl, rfl⟩ := htext
    rw [ht] at htake
    cases htake

/-- The scanner goes through the words of a split and on from there. -/
theorem scan_eq (h : Split text ws ts rest) (position : Nat) :
    Token.scan position text =
      (Token.scan (position + ws.flatten.length) rest).map (ts ++ ·) := by
  induction h generalizing position with
  | nil rest => cases hscan : Token.scan position rest <;> simp [hscan, Except.map]
  | @cons w rest rest' token ws ts hw hm _ ih =>
    obtain ⟨c, cs, rfl, ht⟩ := Lexeme.take_append hw hm position
    have hpos : position + 1 + cs.length + ws.flatten.length =
        position + (List.flatten ((c :: cs) :: ws)).length := by
      simp only [List.flatten_cons, List.length_append, List.length_cons]
      omega
    rw [List.cons_append, Token.scan_cons_of_take ht, List.drop_left, ih, hpos]
    cases Token.scan (position + (List.flatten ((c :: cs) :: ws)).length) rest' with
    | error e => rfl
    | ok tokens => simp [Except.map]

end Split

/-- A text splits up to its end, or up to where the scanner fails. -/
theorem Token.exists_split (position : Nat) (text : List Char) :
    ∃ ws ts rest, Split text ws ts rest ∧ (rest = [] ∨ ∃ c cs e, rest = c :: cs ∧
      Lexeme.take (position + ws.flatten.length) c cs = .error e) := by
  rcases text with _ | ⟨c, cs⟩
  · exact ⟨[], [], [], .nil [], .inl rfl⟩
  rcases ht : Lexeme.take position c cs with e | l
  · exact ⟨[], [], c :: cs, .nil _, .inr ⟨c, cs, e, rfl, ht⟩⟩
  obtain ⟨ds, rest, rfl, -, hw, hm⟩ := Lexeme.isLexeme_of_take ht
  have hlen : rest.length < (c :: (ds ++ rest)).length := by
    simp only [List.length_cons, List.length_append]
    omega
  obtain ⟨ws, ts, rest', hs, hend⟩ := exists_split (position + (c :: ds).length) rest
  refine ⟨_, _, rest', .cons hw hm hs, hend.imp id ?_⟩
  rintro ⟨c', cs', e, rfl, he⟩
  exact ⟨c', cs', e, rfl, by rwa [List.flatten_cons, List.length_append, ← Nat.add_assoc]⟩
termination_by text.length

/-! ## Whole texts -/

/-- A split of a text after which no more of it can be split. -/
structure LongestSplit (text : List Char) (ws : List (List Char)) (ts : List Token)
    (rest : List Char) : Prop where
  split : Split text ws ts rest
  length_le : ∀ ws' ts' rest', Split text ws' ts' rest' → rest.length ≤ rest'.length

theorem Token.scan_eq_ok_iff {text : List Char} {ts : List Token} :
    Token.scan 0 text = .ok ts ↔ ∃ ws, Split text ws ts [] := by
  obtain ⟨ws, us, rest, hs, rfl | ⟨c, cs, e, rfl, he⟩⟩ := Token.exists_split 0 text
  · have hscan := hs.scan_eq 0
    simp only [Token.scan_nil, Except.map, List.append_nil] at hscan
    rw [hscan]
    constructor
    · rintro h
      cases h
      exact ⟨ws, hs⟩
    · rintro ⟨ws', hs'⟩
      rw [(hs.unique hs' rfl).2.1]
  · rw [hs.scan_eq 0, Token.scan_cons_of_take_error he]
    refine iff_of_false nofun fun ⟨ws', hs'⟩ => ?_
    have := hs.length_le_of_take he hs'
    simp at this

theorem Token.scan_eq_error_iff {text : List Char} {e : ScanError} :
    Token.scan 0 text = .error e ↔ ∃ ws ts rest, LongestSplit text ws ts rest ∧ rest ≠ [] ∧
      Fault ws.flatten.length rest e := by
  obtain ⟨ws, us, rest, hs, rfl | ⟨c, cs, e', rfl, he⟩⟩ := Token.exists_split 0 text
  · rw [hs.scan_eq 0, Token.scan_nil]
    refine iff_of_false nofun fun ⟨ws', ts', rest', hl, hne, _⟩ => hne ?_
    exact List.eq_nil_of_length_eq_zero (Nat.le_zero.mp (hl.length_le _ _ _ hs))
  · have hl : LongestSplit text ws us (c :: cs) := ⟨hs, fun _ _ _ => hs.length_le_of_take he⟩
    have hscan : Token.scan 0 text = .error e' := by
      rw [hs.scan_eq 0, Token.scan_cons_of_take_error he]
      rfl
    rw [Nat.zero_add] at he
    have hfault := Lexeme.fault_of_take he
    rw [hscan]
    constructor
    · intro h
      cases h
      exact ⟨ws, us, c :: cs, hl, nofun, hfault⟩
    · rintro ⟨ws', ts', rest', hl', -, hf⟩
      obtain ⟨rfl, -, rfl⟩ := hs.unique hl'.split
        (Nat.le_antisymm (hl.length_le _ _ _ hl'.split) (hl'.length_le _ _ _ hs))
      rw [hfault.unique hf]

/-- A text has the tokens of the one split that it has; if it has none, the error is the fault
behind its longest beginning that splits. -/
theorem Token.tokenize_eq_iff_split (text : String) :
    (∀ ts, (Token.tokenize text).result = .ok ts ↔ ∃ ws, Split text.toList ws ts []) ∧
    (∀ ws ts ws' ts', Split text.toList ws ts [] → Split text.toList ws' ts' [] →
      ws = ws' ∧ ts = ts') ∧
    ∀ e, (Token.tokenize text).result = .error e ↔ ∃ ws ts rest,
      LongestSplit text.toList ws ts rest ∧ rest ≠ [] ∧ Fault ws.flatten.length rest e := by
  rw [Token.result_tokenize]
  refine ⟨fun _ => Token.scan_eq_ok_iff, fun ws ts ws' ts' h h' => ?_,
    fun _ => Token.scan_eq_error_iff⟩
  obtain ⟨hws, hts, -⟩ := h.unique h' rfl
  exact ⟨hws, hts⟩

end Formulary
