import Formulary.Expr
import Formulary.Proofs.Number.Positional
import Formulary.Proofs.Token.Joining

/-!
# Written tokens

The tokens that lexemes stand for are the writable ones: numbers that are finite and have a clear
sign bit, names without a closing brace, operators and brackets (`IsLexeme.writable`). Each of them
has a lexeme of its own, `Token.written` (`Token.isLexeme_written`). Written with spaces between
them, any writable tokens in any order are scanned as themselves (`Token.scan_spaced`), so that
these are the token lists that texts have (`Token.tokenize_image`).
-/

namespace Formulary

/-! ## What lexemes stand for -/

/-- The tokens that lexemes stand for. -/
def Token.Writable : Token → Prop
  | .number x => Number.IsFinite x ∧ Number.isNegative x = false
  | .variable name => '\x7d' ∉ name.toList
  | _ => True

theorem IsLexeme.writable {w : List Char} {token : Token} (h : IsLexeme w (some token)) :
    token.Writable := by
  cases h with
  | openBracket => trivial
  | closeBracket => trivial
  | operator op => trivial
  | number hw hx hf =>
    obtain ⟨n, hn, rfl⟩ := hw
    rw [hn.read_chars] at hx
    cases hx
    exact ⟨hf, n.decimal.isNegative_toFloat⟩
  | identifier hv =>
    intro hmem
    rw [String.toList_ofList] at hmem
    rcases w with _ | ⟨c, cs⟩
    · cases hmem
    obtain ⟨hc, hcs⟩ := isValid_cons.mp hv
    rcases List.mem_cons.mp hmem with rfl | hmem
    · cases hc
    · cases hcs _ hmem
  | braced hn => rwa [Token.Writable, String.toList_ofList]

theorem Split.writable {text rest : List Char} {ws : List (List Char)} {ts : List Token}
    (h : Split text ws ts rest) : ∀ token ∈ ts, token.Writable := by
  induction h with
  | nil => nofun
  | @cons w rest rest' token ws ts hw _ _ ih =>
    intro t ht
    rcases List.mem_append.mp ht with ht | ht
    · obtain rfl := Option.mem_toList.mp ht
      exact hw.writable
    · exact ih t ht

/-! ## Texts for tokens -/

/-- The characters `w` stand for the tokens `ts`, in front of whatever they do not run into. -/
def Spells (w : List Char) (ts : List Token) : Prop :=
  ∀ rest, Ends rest → ∃ ws, Split (w ++ rest) ws ts rest

theorem IsLexeme.spells {w : List Char} {t : Token} (h : IsLexeme w (some t)) : Spells w [t] :=
  fun rest hr => ⟨_, .cons h (hr.maximal w) (.nil rest)⟩

theorem Spells.scan {w : List Char} {ts : List Token} (h : Spells w ts) :
    Token.scan 0 w = .ok ts := by
  obtain ⟨ws, hs⟩ := h [] nofun
  rw [List.append_nil] at hs
  exact Token.scan_eq_ok_iff.mpr ⟨ws, hs⟩

namespace Token

/-- The token as it stands in a formula. -/
def written : Token → String
  | number x => Number.text x
  | .variable name => Expr.nameText name
  | operator op => op.text
  | openBracket => "("
  | closeBracket => ")"

theorem isLexeme_text_number {x : Float} (h : (number x).Writable) :
    IsLexeme (Number.text x).toList (some (.number x)) := by
  obtain ⟨n, hn, htext, hx⟩ := Number.exists_numeral_text h.1 h.2
  rw [htext, String.toList_ofList]
  refine .number ⟨n, hn, rfl⟩ ?_ h.1
  rw [hn.read_chars, hx]

theorem isLexeme_nameText {name : String} (h : (Token.variable name).Writable) :
    IsLexeme (Expr.nameText name).toList (some (.variable name)) := by
  unfold Expr.nameText
  split
  case isTrue hv =>
    have := IsLexeme.identifier hv
    rwa [String.ofList_toList] at this
  case isFalse =>
    have := IsLexeme.braced h
    rw [String.ofList_toList] at this
    simpa using this

theorem isLexeme_written {t : Token} (h : t.Writable) : IsLexeme t.written.toList (some t) := by
  cases t with
  | number x => exact isLexeme_text_number h
  | «variable» name => exact isLexeme_nameText h
  | operator op =>
    rw [written, Operator.text, String.toList_singleton]
    exact .operator op
  | openBracket => exact .openBracket
  | closeBracket => exact .closeBracket

/-! ## Token lists -/

/-- The tokens as they stand in a formula, with a single space between any two. -/
def spaced (ts : List Token) : String :=
  " ".intercalate (ts.map written)

theorem scan_spaced {ts : List Token} (h : ∀ t ∈ ts, t.Writable) :
    scan 0 (spaced ts).toList = .ok ts := by
  induction ts with
  | nil => exact scan_nil 0
  | cons t ts ih =>
    have ht := (isLexeme_written (h t (List.mem_cons_self ..))).spells.scan
    rcases ts with _ | ⟨u, us⟩
    · rwa [spaced, List.map_singleton, String.intercalate_singleton]
    · have hjoin : (spaced (t :: u :: us)).toList =
          t.written.toList ++ ' ' :: (spaced (u :: us)).toList := by simp [spaced]
      rw [hjoin, scan_append_space ht, ih fun v hv => h v (List.mem_cons_of_mem _ hv)]
      rfl

/-- The token lists that texts have are those of writable tokens, and each of them is what its
tokens are scanned as when they are written with spaces between them. -/
theorem tokenize_image (ts : List Token) :
    ((∃ text, (tokenize text).result = .ok ts) ↔ ∀ t ∈ ts, t.Writable) ∧
    ((∀ t ∈ ts, t.Writable) → (tokenize (spaced ts)).result = .ok ts) := by
  have hspaced (h : ∀ t ∈ ts, t.Writable) : (tokenize (spaced ts)).result = .ok ts := by
    rw [result_tokenize, scan_spaced h]
  refine ⟨⟨?_, fun h => ⟨spaced ts, hspaced h⟩⟩, hspaced⟩
  rintro ⟨text, h⟩
  rw [result_tokenize, scan_eq_ok_iff] at h
  obtain ⟨ws, hsplit⟩ := h
  exact hsplit.writable

/-- A number, two names, one of which needs braces, and tokens that no formula has in this order. -/
theorem tokenize_image_mixed :
    let ts : List Token := [.number 1.5, .variable "x y", .operator .power, .closeBracket,
      .variable "z"]
    (∀ t ∈ ts, t.Writable) ∧ spaced ts = "1.5 \x7bx y\x7d ^ ) z" ∧
      (tokenize (spaced ts)).result = .ok ts := by
  intro ts
  have hfinite : Number.magnitude 1.5 < Number.infinity := by decide +kernel
  have hnumber : (number 1.5).Writable := ⟨hfinite, by decide +kernel⟩
  have h : ∀ t ∈ ts, t.Writable := by
    simpa [ts, Writable] using hnumber
  exact ⟨h, by decide +kernel, (tokenize_image ts).2 h⟩

end Token

end Formulary
