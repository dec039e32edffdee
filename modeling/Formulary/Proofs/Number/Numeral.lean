import Formulary.Number.Bits
import Formulary.Number.Numeral

/-!
# Numerals in front of a text

A numeral of a formula is `Valid`: it begins with a digit, and has nothing but digits and one point.
`Numeral.take` cuts a valid numeral off a text exactly when no longer one stands there
(`Valid.take_chars_append`, `not_extends_take`). The float of a valid numeral is the one that
`Number.read` gives for its characters (`Valid.read_chars`), although the reader bounds the exponent
of the decimal and the scanner does not.
-/

namespace Formulary

/-! ## Runs of characters -/

/-- A run of characters that satisfy `p` ends in front of a text that does not begin with one. -/
theorem takeWhile_append_of_head {p : Char → Bool} {run rest : List Char} (hp : ∀ c ∈ run, p c)
    (hr : ∀ c ∈ rest.head?, ¬ p c) : (run ++ rest).takeWhile p = run := by
  rw [List.takeWhile_append_of_pos hp]
  rcases rest with _ | ⟨c, rest⟩
  · simp
  · rw [List.takeWhile_cons_of_neg (hr c rfl), List.append_nil]

theorem dropWhile_append_of_head {p : Char → Bool} {run rest : List Char} (hp : ∀ c ∈ run, p c)
    (hr : ∀ c ∈ rest.head?, ¬ p c) : (run ++ rest).dropWhile p = rest := by
  rw [List.dropWhile_append_of_pos hp]
  rcases rest with _ | ⟨c, rest⟩
  · simp
  · rw [List.dropWhile_cons_of_neg (hr c rfl)]

/-- What follows the longest run does not begin with a character of the run. -/
theorem not_of_mem_head?_dropWhile {p : Char → Bool} {text : List Char} :
    ∀ c ∈ (text.dropWhile p).head?, ¬ p c := by
  intro c hc
  have := List.head?_dropWhile_not p text
  rw [Option.mem_def.mp hc] at this
  simpa using this

namespace Numeral

/-- The numerals that a formula may hold: one digit or more, and perhaps a point and more digits. -/
structure Valid (n : Numeral) : Prop where
  whole_ne_nil : n.whole ≠ []
  whole : ∀ c ∈ n.whole, c.isDigit
  fraction : ∀ c ∈ n.fraction.getD [], c.isDigit

/-- Whether the numeral goes on with a character. A second point ends it. -/
def Extends (n : Numeral) (c : Char) : Prop :=
  c.isDigit ∨ c = '.' ∧ n.fraction = none

theorem chars_take (text : List Char) : (take text).1.chars ++ (take text).2 = text := by
  have h := List.takeWhile_append_dropWhile (p := Char.isDigit) (l := text)
  unfold take
  split
  case h_1 rest hrest =>
    rw [hrest] at h
    simp only [chars, List.append_assoc, List.cons_append, List.takeWhile_append_dropWhile, h]
  case h_2 => exact h

theorem valid_take {c : Char} {text : List Char} (hc : c.isDigit) : (take (c :: text)).1.Valid := by
  have hne : (c :: text).takeWhile Char.isDigit ≠ [] := by simp [hc]
  have hall (ds : List Char) : ∀ c ∈ ds.takeWhile Char.isDigit, c.isDigit := fun c h =>
    List.all_eq_true.mp List.all_takeWhile c h
  unfold take
  split
  · exact ⟨hne, hall _, hall _⟩
  · exact ⟨hne, hall _, nofun⟩

/-- The numeral that was cut off does not go on. -/
theorem not_extends_take (text : List Char) :
    ∀ c ∈ (take text).2.head?, ¬ (take text).1.Extends c := by
  unfold take
  split
  case h_1 =>
    rintro c hc (hd | ⟨-, h⟩)
    · exact not_of_mem_head?_dropWhile c hc hd
    · cases h
  case h_2 hpoint =>
    rintro c hc (hd | ⟨rfl, -⟩)
    · exact not_of_mem_head?_dropWhile c hc hd
    · obtain ⟨rest, hrest⟩ := List.head?_eq_some_iff.mp hc
      exact hpoint rest hrest

/-- A numeral that does not go on is cut off whole. -/
theorem Valid.take_chars_append {n : Numeral} (h : n.Valid) {rest : List Char}
    (hr : ∀ c ∈ rest.head?, ¬ n.Extends c) : take (n.chars ++ rest) = (n, rest) := by
  have hd : ∀ c ∈ rest.head?, ¬ c.isDigit := fun c hc hd => hr c hc (.inl hd)
  obtain ⟨whole, fraction⟩ := n
  unfold take
  cases fraction with
  | none =>
    simp only [chars, takeWhile_append_of_head h.whole hd, dropWhile_append_of_head h.whole hd]
    split
    · exact absurd (.inr ⟨rfl, rfl⟩) (hr '.' rfl)
    · rfl
  | some ds =>
    have hp : ∀ c ∈ ('.' :: (ds ++ rest)).head?, ¬ c.isDigit := by simp
    have hds : ∀ c ∈ ds, c.isDigit := h.fraction
    simp only [chars, List.append_assoc, List.cons_append, takeWhile_append_of_head h.whole hp,
      dropWhile_append_of_head h.whole hp, takeWhile_append_of_head hds hd,
      dropWhile_append_of_head hds hd]

end Numeral

/-- The texts of numerals: digits, or digits, a point and perhaps more digits. -/
def IsNumeral (w : List Char) : Prop :=
  ∃ n : Numeral, n.Valid ∧ n.chars = w

namespace Numeral

variable {n : Numeral}

theorem Valid.exists_cons (h : n.Valid) : ∃ c cs, n.chars = c :: cs ∧ c.isDigit := by
  obtain ⟨_ | ⟨c, whole⟩, fraction⟩ := n
  · exact absurd rfl h.whole_ne_nil
  · have hc : c.isDigit := h.whole c (List.mem_cons_self ..)
    cases fraction with
    | none => exact ⟨c, whole, rfl, hc⟩
    | some ds => exact ⟨c, whole ++ '.' :: ds, rfl, hc⟩

theorem Valid.isDigit_or_eq_point (h : n.Valid) : ∀ c ∈ n.chars, c.isDigit ∨ c = '.' := by
  obtain ⟨whole, fraction⟩ := n
  intro c hc
  cases fraction with
  | none => exact .inl (h.whole c hc)
  | some ds =>
    rcases List.mem_append.mp hc with hc | hc
    · exact .inl (h.whole c hc)
    · exact (List.mem_cons.mp hc).symm.imp_left (h.fraction c)

theorem count_point_eq_zero {ds : List Char} (h : ∀ c ∈ ds, c.isDigit) : ds.count '.' = 0 :=
  List.count_eq_zero.mpr fun hp => absurd (h '.' hp) (by decide)

theorem Valid.count_point (h : n.Valid) :
    n.chars.count '.' = if n.fraction = none then 0 else 1 := by
  obtain ⟨whole, fraction⟩ := n
  cases fraction with
  | none => exact count_point_eq_zero h.whole
  | some ds =>
    have hds : ∀ c ∈ ds, c.isDigit := h.fraction
    simp [chars, count_point_eq_zero h.whole, count_point_eq_zero hds]

/-- A numeral goes on with exactly the characters that make its text a longer numeral. -/
theorem Valid.isNumeral_append_iff (h : n.Valid) {c : Char} :
    IsNumeral (n.chars ++ [c]) ↔ n.Extends c := by
  constructor
  · intro ⟨m, hm, hmc⟩
    have hc : c ∈ m.chars := by rw [hmc]; simp
    refine (hm.isDigit_or_eq_point c hc).imp_right fun hp => ⟨hp, ?_⟩
    have hcount := hm.count_point
    rw [hmc, List.count_append, hp, h.count_point] at hcount
    cases hf : n.fraction with
    | none => rfl
    | some ds => cases hg : m.fraction <;> simp [hf, hg] at hcount
  · obtain ⟨whole, fraction⟩ := n
    rintro (hd | ⟨rfl, hf⟩)
    · cases fraction with
      | none =>
        refine ⟨⟨whole ++ [c], none⟩, ⟨by simp, ?_, nofun⟩, rfl⟩
        simpa [or_imp, forall_and, hd] using h.whole
      | some ds =>
        refine ⟨⟨whole, some (ds ++ [c])⟩, ⟨h.whole_ne_nil, h.whole, ?_⟩, by simp [chars]⟩
        simpa [or_imp, forall_and, hd] using h.fraction
    · obtain rfl : fraction = none := hf
      exact ⟨⟨whole, some []⟩, ⟨h.whole_ne_nil, h.whole, nofun⟩, rfl⟩

end Numeral

/-! ## The value of a numeral -/

/-- A float that is a number, neither infinite nor not-a-number. -/
def Number.IsFinite (x : Float) : Prop :=
  magnitude x < infinity

/-- A quotient below one half is nearest to zero. -/
theorem Number.nearest_eq_zero {n d : Nat} (h : 2 * n < d) : Number.nearest n d = 0 := by
  have hdiv : n / d = 0 := Nat.div_eq_of_lt (by omega)
  have hmod : n % d = n := Nat.mod_eq_of_lt (by omega)
  simp [Number.nearest, Number.roundHalfEven, hdiv, hmod, Nat.compare_eq_lt.mpr h]

namespace Decimal

theorem nearest_le_infinity (d : Decimal) : d.nearest ≤ Number.infinity :=
  Number.nearest_le_infinity _ _

theorem magnitude_toFloat (d : Decimal) : Number.magnitude d.toFloat = d.nearest :=
  Number.magnitude_ofPattern d.nearest_le_infinity

theorem isNegative_toFloat (d : Decimal) : Number.isNegative d.toFloat = false :=
  Number.isNegative_ofPattern d.nearest_le_infinity

theorem isFinite_toFloat_iff {d : Decimal} :
    Number.IsFinite d.toFloat ↔ d.nearest < Number.infinity := by
  rw [Number.IsFinite, d.magnitude_toFloat]

/-- A decimal with four hundred zeros behind its point is below half of the least float. -/
theorem nearest_eq_zero {d : Decimal} (h : d.exponent ≤ -(400 + (d.digits.length : Int))) :
    d.nearest = 0 := by
  have hz : d.zeros = 0 := by simp only [zeros]; omega
  have hp : 400 + d.digits.length ≤ d.places := by simp only [places]; omega
  have hc : d.coefficient < 10 ^ d.digits.length :=
    (Nat.length_toDigits_le_iff (by decide) Nat.length_toDigits_pos).mp (Nat.le_refl _)
  have hu : 2 * 2 ^ Number.unitScale < 10 ^ 400 := by decide +kernel
  refine Number.nearest_eq_zero ?_
  simp only [hz, Nat.pow_eq, Nat.pow_zero, Nat.mul_one, Nat.shiftLeft_eq]
  calc 2 * (d.coefficient * 2 ^ Number.unitScale)
      = d.coefficient * (2 * 2 ^ Number.unitScale) := Nat.mul_left_comm ..
    _ < 10 ^ d.digits.length * 10 ^ 400 := Nat.mul_lt_mul'' hc hu
    _ = 10 ^ (400 + d.digits.length) := by rw [Nat.mul_comm, Nat.pow_add]
    _ ≤ 10 ^ d.places := Nat.pow_le_pow_right (by decide) hp

end Decimal

namespace Numeral

/-- Bounding the exponent does not change the float: what is beyond the bound is zero anyway. -/
theorem toFloat_scale (d : Decimal) (h : d.exponent ≤ 0) :
    (Number.scale d 0).toFloat = d.toFloat := by
  by_cases hb : -(400 + (d.digits.length : Int)) ≤ d.exponent
  · have : Number.scale d 0 = d := by
      simp only [Number.scale]
      congr 1
      omega
    rw [this]
  · have hz : d.nearest = 0 := Decimal.nearest_eq_zero (by omega)
    have hs : (Number.scale d 0).nearest = 0 := by
      apply Decimal.nearest_eq_zero
      simp only [Number.scale, Decimal.digits] at hb ⊢
      omega
    rw [Decimal.toFloat, Decimal.toFloat, hz, hs]

theorem toFloat_scale_decimal (n : Numeral) :
    (Number.scale n.decimal 0).toFloat = n.decimal.toFloat := by
  apply toFloat_scale
  simp only [decimal, Decimal.ofPositional]
  omega

theorem toLower_of_isDigit {c : Char} (h : c.isDigit) : c.toLower = c := by
  have hlower : ¬ ('A'.toNat ≤ c.toNat ∧ c.toNat ≤ 'Z'.toNat) := by
    have h0 : '9'.toNat < 'A'.toNat := by decide
    obtain ⟨hlo, hhi⟩ := Char.isDigit_iff_toNat.mp h
    omega
  exact dif_neg hlower

/-- The text of a numeral is none of the words for values that are not finite. -/
theorem readWord_eq_none {c : Char} {cs : List Char} (hc : c.isDigit) :
    Number.readWord (c :: cs) = none := by
  have hword (w : Char) (ws : List Char) (hw : w.isDigit = false) :
      String.ofList ((c :: cs).map Char.toLower) ≠ String.ofList (w :: ws) := by
    intro h
    have := List.head_eq_of_cons_eq (String.ofList_injective h)
    rw [toLower_of_isDigit hc] at this
    rw [this, hw] at hc
    cases hc
  unfold Number.readWord
  rw [if_neg (not_or.mpr ⟨hword 'i' _ rfl, hword 'i' _ rfl⟩), if_neg (hword 'n' _ rfl)]

/-- The float of a numeral is the one that its text is read as. -/
theorem Valid.read_chars {n : Numeral} (h : n.Valid) :
    Number.read (String.ofList n.chars) = .ok n.decimal.toFloat := by
  obtain ⟨c, cs, hc, hd⟩ := h.exists_cons
  have htake : take (c :: cs) = (n, []) := by
    have hend := h.take_chars_append (show ∀ c ∈ [].head?, ¬ n.Extends c from nofun)
    rwa [List.append_nil, hc] at hend
  have hsign : Number.splitSign (c :: cs) = (false, c :: cs) := by
    unfold Number.splitSign
    split <;> simp_all
  have hguard : (guard (n.chars.any Char.isDigit = true) : Option Unit) = some () :=
    if_pos (by simp [hc, hd])
  have hdigits : Number.readDigits (c :: cs) = some n.decimal.toFloat := by
    rw [Number.readDigits, htake]
    show (guard (n.chars.any Char.isDigit = true) >>= fun _ =>
      some (Number.scale n.decimal 0).toFloat) = _
    rw [hguard, ← toFloat_scale_decimal]
    rfl
  rw [Number.read, hc]
  simp [hsign, readWord_eq_none hd, hdigits]

end Numeral

end Formulary
