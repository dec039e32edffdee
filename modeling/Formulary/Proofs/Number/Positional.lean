import Formulary.Number.Layout
import Formulary.Proofs.Number.Numeral

/-!
# Positional texts are numerals

The positional text of a decimal is the text of a valid numeral (`Decimal.numeral`) with the same
nearest float (`nearest_numeral`). Filled-in zeros on the right multiply the coefficient, and those
on the left do not count. The plain text of a finite float with a clear sign bit is therefore a
numeral for that very float (`Number.exists_numeral_text`).
-/

namespace Formulary

namespace Decimal

/-- The digits of a fraction, with as many zeros in front as leave a digit before the point. -/
def padded (d : Decimal) : List Char :=
  List.replicate (d.places + 1 - d.digits.length) '0' ++ d.digits

/-- The positional text, taken apart at its point. -/
def numeral (d : Decimal) : Numeral :=
  if d.places = 0 then ⟨d.digits ++ List.replicate d.zeros '0', none⟩
  else
    let whole := d.padded.length - d.places
    ⟨d.padded.take whole, some (d.padded.drop whole)⟩

variable (d : Decimal)

theorem chars_numeral : d.numeral.chars = d.positional := by
  unfold numeral positional
  split <;> rfl

theorem places_lt_length_padded : d.places < d.padded.length := by
  simp only [padded, List.length_append, List.length_replicate]
  omega

theorem isDigit_of_mem_digits {c : Char} (h : c ∈ d.digits) : c.isDigit :=
  Nat.isDigit_of_mem_toDigits (by decide) (by decide) h

theorem isDigit_of_mem_padded {c : Char} (h : c ∈ d.padded) : c.isDigit := by
  rcases List.mem_append.mp h with h | h
  · rw [List.eq_of_mem_replicate h]
    decide
  · exact d.isDigit_of_mem_digits h

theorem valid_numeral : d.numeral.Valid := by
  unfold numeral
  split
  case isTrue =>
    refine ⟨fun h => Nat.toDigits_ne_nil (List.append_eq_nil_iff.mp h).1, fun c hc => ?_, nofun⟩
    rcases List.mem_append.mp hc with hc | hc
    · exact d.isDigit_of_mem_digits hc
    · rw [List.eq_of_mem_replicate hc]
      decide
  case isFalse =>
    have hlen := d.places_lt_length_padded
    refine ⟨fun h => ?_, fun c hc => d.isDigit_of_mem_padded (List.mem_of_mem_take hc),
      fun c hc => d.isDigit_of_mem_padded (List.mem_of_mem_drop hc)⟩
    have := congrArg List.length h
    simp only [List.length_take, List.length_nil] at this
    omega

theorem ofDigitChars_digits : Nat.ofDigitChars 10 d.digits 0 = d.coefficient :=
  Nat.ofDigitChars_ten_toDigits

theorem ofDigitChars_padded : Nat.ofDigitChars 10 d.padded 0 = d.coefficient := by
  rw [padded, Nat.ofDigitChars_append, Nat.ofDigitChars_replicate_zero, Nat.mul_zero,
    ofDigitChars_digits]

theorem nearest_numeral : d.numeral.decimal.nearest = d.nearest := by
  unfold numeral
  split
  case isTrue hp =>
    have hc : Nat.ofDigitChars 10 (d.digits ++ List.replicate d.zeros '0' ++ []) 0 =
        d.coefficient * 10 ^ d.zeros := by
      rw [List.append_nil, Nat.ofDigitChars_append, Nat.ofDigitChars_replicate_zero,
        ofDigitChars_digits, Nat.mul_comm]
    show nearest ⟨Nat.ofDigitChars 10 (d.digits ++ List.replicate d.zeros '0' ++ []) 0, 0⟩ = _
    rw [hc, nearest, nearest, hp]
    simp only [zeros, places, Int.neg_zero, Int.toNat_zero, Nat.pow_eq, Nat.pow_zero, Nat.mul_one]
  case isFalse hp =>
    have hlen := d.places_lt_length_padded
    have hd : d = ⟨d.coefficient, -d.places⟩ := by
      obtain ⟨coefficient, exponent⟩ := d
      simp only [places] at hp ⊢
      congr
      omega
    have hf : (d.padded.drop (d.padded.length - d.places)).length = d.places := by
      rw [List.length_drop]
      omega
    simp only [Numeral.decimal, ofPositional, Option.getD_some, List.take_append_drop, hf,
      ofDigitChars_padded]
    rw [← hd]

end Decimal

namespace Number

/-- The text of a finite float with a clear sign bit is a numeral for the same float. -/
theorem exists_numeral_text {x : Float} (hf : IsFinite x) (hs : isNegative x = false) :
    ∃ n : Numeral, n.Valid ∧ text x = String.ofList n.chars ∧ n.decimal.toFloat = x := by
  refine ⟨(shortest (magnitude x)).numeral, Decimal.valid_numeral _, ?_, ?_⟩
  · rw [Decimal.chars_numeral, text_eq_positional hs hf]
  · rw [Decimal.toFloat, Decimal.nearest_numeral, nearest_shortest (Nat.le_of_lt hf),
      ofPattern_magnitude hs]

/-- A negative number is written as a minus sign and its absolute value. -/
theorem text_of_isNegative {x : Float} (hf : IsFinite x) (hs : isNegative x = true) :
    text x = "-" ++ text (ofPattern (magnitude x)) := by
  have hle : magnitude x ≤ infinity := Nat.le_of_lt hf
  have hfinite : ¬ infinity < magnitude x ∧ magnitude x ≠ infinity :=
    ⟨Nat.not_lt.mpr hle, Nat.ne_of_lt hf⟩
  simp [text, Layout.float, magnitude_ofPattern hle, isNegative_ofPattern hle, hs, hfinite]

end Number

end Formulary
