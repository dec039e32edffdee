import Formulary.Number.Rounding

/-!
# Floats and their patterns

A float is its sixty-four bits: sign, exponent and fraction. The main statements are that the bits
of a float make the same float again (`ofBits_toBits`), and that a pattern up to `infinity` is the
magnitude of the float it makes (`magnitude_ofPattern`), so that the floats with a clear sign bit
which are numbers correspond to the patterns (`ofPattern_magnitude`). A float is determined by its
sign bit and its magnitude (`eq_of_magnitude_eq`), of which negation turns the first and leaves the
second (`isNegative_neg`, `magnitude_neg`).
-/

namespace Formulary.Number

open Float.Model Float.Model.UnpackedFloat

/-- One sign bit, eleven bits of exponent, fifty-two of fraction. -/
abbrev binary64 : Format := Format.binary64

/-- The fraction among the bits. -/
abbrev fractionBits (b : BitVec 64) : BitVec 52 := @unpackMantissa binary64 b

/-- The exponent among the bits. -/
abbrev exponentBits (b : BitVec 64) : BitVec 11 := @unpackExponent binary64 b

/-- The sign among the bits. -/
abbrev signBits (b : BitVec 64) : BitVec 1 := @unpackSign binary64 b

/-! ## Taking bits apart -/

theorem toNat_packComponents (s : Sign) (e : BitVec 11) (m : BitVec 52) :
    (packComponents binary64 s e m).toNat
      = s.toBitVec.toNat * signBit + e.toNat * binade + m.toNat := by
  show (s.toBitVec ++ e ++ m).toNat = _
  rw [BitVec.toNat_append, BitVec.toNat_append, ← Nat.shiftLeft_add_eq_or_of_lt m.isLt,
    ← Nat.shiftLeft_add_eq_or_of_lt e.isLt, Nat.shiftLeft_eq, Nat.shiftLeft_eq, signBit, binade]
  omega

theorem toNat_fractionBits (b : BitVec 64) : (fractionBits b).toNat = b.toNat % binade := by
  show (b.extractLsb 51 0).toNat = _
  rw [BitVec.extractLsb_toNat, Nat.shiftRight_zero]
  rfl

theorem toNat_exponentBits (b : BitVec 64) :
    (exponentBits b).toNat = b.toNat / binade % 2048 := by
  show (b.extractLsb 62 52).toNat = _
  rw [BitVec.extractLsb_toNat, Nat.shiftRight_eq_div_pow]
  rfl

theorem toNat_signBits (b : BitVec 64) : (signBits b).toNat = b.toNat / signBit := by
  have hb := b.isLt
  show (b.extractLsb 63 63).toNat = _
  rw [BitVec.extractLsb_toNat, Nat.shiftRight_eq_div_pow]
  simp only [signBit]
  omega

theorem toBitVec_ofBitVec (s : BitVec 1) : (Sign.ofBitVec s).toBitVec = s := by
  revert s; decide

theorem packComponents_bits (b : BitVec 64) :
    packComponents binary64 (Sign.ofBitVec (signBits b)) (exponentBits b) (fractionBits b) = b := by
  apply BitVec.eq_of_toNat_eq
  rw [toNat_packComponents, toBitVec_ofBitVec, toNat_fractionBits, toNat_exponentBits,
    toNat_signBits, signBit, binade]
  omega

/-! ## Putting bits together -/

theorem pack_finite {s : Sign} {m : Nat} {e : Int} (hm : 0 < m) {k : BitVec 11} {f : BitVec 52}
    (hk : k ≠ -1#11) (hf : f.toNat = m % binade)
    (h : k = 0#11 ∧ m < binade ∧ e = -1074
      ∨ k ≠ 0#11 ∧ binade ≤ m ∧ m < 2 * binade ∧ e = k.toNat - 1075) :
    UnpackedFloat.pack binary64 (.finite s m e hm) = packComponents binary64 s k f := by
  have hk' := k.isLt
  have hk2 : k.toNat ≠ 2047 := fun h => hk (BitVec.eq_of_toNat_eq h)
  have hff : f = BitVec.ofNat 52 m := BitVec.eq_of_toNat_eq (by simpa [binade] using hf)
  simp only [binade] at h
  have hb : ∀ j : Nat, (e + 1023 + 52).toNat = j → UnpackedFloat.pack binary64 (.finite s m e hm) =
      if 2048 ≤ j + 1 then packedInfinity binary64 s
      else if m.log2 + 1 = 53 then packComponents binary64 s (BitVec.ofNat 11 j) (BitVec.ofNat 52 m)
      else packComponents binary64 s 0#11 (BitVec.ofNat 52 m) := by
    rintro j rfl; rfl
  rcases h with ⟨h0, h1, h2⟩ | ⟨h0, h1, h2, h3⟩
  · have hl : m.log2 < 52 := (Nat.log2_lt (by omega)).mpr h1
    rw [hb 1 (by omega), if_neg (by omega), if_neg (by omega), hff, h0]
  · have hl : m.log2 = 52 := (Nat.log2_eq_iff (by omega)).mpr ⟨h1, h2⟩
    rw [hb k.toNat (by omega), if_neg (by omega), if_pos (by omega), hff]
    simp

/-- Bits that are a number: zero, or a significand with an exponent. Only normal floats have a
significand of at least `binade`. -/
theorem unpack_of_exponentBits_ne {b : BitVec 64} (he : exponentBits b ≠ -1#11) :
    (exponentBits b = 0#11 ∧ fractionBits b = 0#52 ∧
      UnpackedFloat.unpack binary64 b = .zero (Sign.ofBitVec (signBits b))) ∨
    ∃ m e hm, UnpackedFloat.unpack binary64 b = .finite (Sign.ofBitVec (signBits b)) m e hm ∧
      (fractionBits b).toNat = m % binade ∧
      (exponentBits b = 0#11 ∧ m < binade ∧ e = -1074 ∨ exponentBits b ≠ 0#11 ∧ binade ≤ m ∧
        m < 2 * binade ∧ e = (exponentBits b).toNat - 1075) := by
  have hm : (fractionBits b).toNat < binade := (fractionBits b).isLt
  by_cases hs : exponentBits b = 0#11
  · by_cases hz : fractionBits b = 0#52
    · exact .inl ⟨hs, hz, (if_neg he).trans ((if_pos hs).trans (dif_pos hz))⟩
    · refine .inr ⟨_, _, _, (if_neg he).trans ((if_pos hs).trans (dif_neg hz)),
        (Nat.mod_eq_of_lt hm).symm, .inl ⟨hs, hm, ?_⟩⟩
      show ((exponentBits b).toNat : Int) - 1075 + 1 = -1074
      rw [hs]
      rfl
  · have hn : (1#1 ++ fractionBits b).toNat = binade + (fractionBits b).toNat := by
      rw [BitVec.toNat_append, ← Nat.shiftLeft_add_eq_or_of_lt (fractionBits b).isLt]
      rfl
    refine .inr ⟨_, _, _, (if_neg he).trans (if_neg hs), ?_, .inr ⟨hs, ?_, ?_, rfl⟩⟩
    · rw [hn, Nat.add_mod_left, Nat.mod_eq_of_lt hm]
    · rw [hn]
      omega
    · rw [hn]
      omega

theorem pack_unpack {b : BitVec 64} (h : binary64.Valid b) :
    UnpackedFloat.pack binary64 (UnpackedFloat.unpack binary64 b) = b := by
  have hb := packComponents_bits b
  by_cases he : exponentBits b = -1#11
  · by_cases hz : fractionBits b = 0#52
    · have hu : UnpackedFloat.unpack binary64 b = .infinity (Sign.ofBitVec (signBits b)) :=
        (if_pos he).trans (if_pos hz)
      rw [he, hz] at hb
      rw [hu]
      exact hb
    · have hu : UnpackedFloat.unpack binary64 b = .notANumber := (if_pos he).trans (if_neg hz)
      rw [hu]
      exact (h.eq_packedNaN he hz).symm
  · rcases unpack_of_exponentBits_ne he with ⟨hs, hz, hu⟩ | ⟨m, e, hm, hu, hf, hr⟩
    · rw [hs, hz] at hb
      rw [hu]
      exact hb
    · rw [hu, pack_finite hm he hf hr, hb]

/-! ## Floats -/

/-- A float is made of its bits. -/
theorem ofBits_toBits (x : Float) : Float.ofBits x.toBits = x := by
  obtain ⟨⟨bits, valid⟩⟩ := x
  have hbits : Float.Model.ofBits bits = ⟨bits, valid⟩ := by
    rw [Float.Model.ofBits, Float.Model.pack, Float.Model.mk.injEq]
    exact congrArg UInt64.ofBitVec (pack_unpack valid)
  exact congrArg Float.ofModel hbits

theorem toBits_ofBits {bits : UInt64} (h : binary64.Valid bits.toBitVec) :
    (Float.ofBits bits).toBits = bits := by
  exact congrArg UInt64.ofBitVec (pack_unpack h)

theorem valid_of_le_infinity {bits : UInt64} (h : bits.toNat ≤ infinity) :
    binary64.Valid bits.toBitVec := by
  refine ⟨fun he hm => ?_⟩
  have h1 := toNat_exponentBits bits.toBitVec
  have h2 := toNat_fractionBits bits.toBitVec
  have h3 : (fractionBits bits.toBitVec).toNat ≠ 0 := fun h => hm (BitVec.eq_of_toNat_eq h)
  have h4 : (exponentBits bits.toBitVec).toNat = 2047 := by rw [exponentBits, he]; rfl
  have h5 : bits.toBitVec.toNat = bits.toNat := rfl
  simp only [infinity, binade] at h h2
  simp only [binade] at h1
  omega

theorem toBits_ofPattern {pattern : Nat} (h : pattern ≤ infinity) :
    (ofPattern pattern).toBits.toNat = pattern := by
  have hp : (UInt64.ofNat pattern).toNat = pattern := by
    simp only [infinity, binade] at h
    simp only [UInt64.toNat_ofNat']
    omega
  rw [ofPattern, toBits_ofBits (valid_of_le_infinity (by rwa [hp])), hp]

/-- A pattern up to infinity is the magnitude of its float. -/
theorem magnitude_ofPattern {pattern : Nat} (h : pattern ≤ infinity) :
    magnitude (ofPattern pattern) = pattern := by
  rw [magnitude, toBits_ofPattern h]
  simp only [infinity, binade, signBit] at *
  omega

/-- The sign bit of the float of a pattern is clear. -/
theorem isNegative_ofPattern {pattern : Nat} (h : pattern ≤ infinity) :
    isNegative (ofPattern pattern) = false := by
  rw [isNegative, toBits_ofPattern h, decide_eq_false_iff_not]
  simp only [infinity, binade, signBit] at *
  omega

/-- A float with a clear sign bit is made of its magnitude. -/
theorem ofPattern_magnitude {x : Float} (h : isNegative x = false) :
    ofPattern (magnitude x) = x := by
  have hm : magnitude x = x.toBits.toNat := by
    simp only [isNegative, decide_eq_false_iff_not] at h
    exact Nat.mod_eq_of_lt (by omega)
  rw [ofPattern, hm, UInt64.ofNat_toNat, ofBits_toBits]

/-! ## Signs -/

/-- Negation turns the sign of bits that are not not-a-number. -/
theorem pack_neg_unpack {b : BitVec 64} (h : exponentBits b = -1#11 → fractionBits b = 0#52) :
    UnpackedFloat.pack binary64 (UnpackedFloat.unpack binary64 b).neg =
      packComponents binary64 (-Sign.ofBitVec (signBits b)) (exponentBits b) (fractionBits b) := by
  by_cases he : exponentBits b = -1#11
  · have hu : UnpackedFloat.unpack binary64 b = .infinity (Sign.ofBitVec (signBits b)) :=
      (if_pos he).trans (if_pos (h he))
    rw [hu, he, h he]
    rfl
  · rcases unpack_of_exponentBits_ne he with ⟨hs, hz, hu⟩ | ⟨m, e, hm, hu, hf, hr⟩
    · rw [hu, hs, hz]
      rfl
    · rw [hu]
      exact pack_finite hm he hf hr

theorem toNat_toBitVec_neg (s : BitVec 1) :
    (-Sign.ofBitVec s).toBitVec.toNat = 1 - s.toNat := by
  revert s; decide

theorem fractionBits_eq_zero {x : Float} (h : magnitude x ≤ infinity)
    (he : exponentBits x.toBits.toBitVec = -1#11) : fractionBits x.toBits.toBitVec = 0#52 := by
  have hb : x.toBits.toBitVec.toNat = x.toBits.toNat := rfl
  have hexp := toNat_exponentBits x.toBits.toBitVec
  rw [he, show (-1#11).toNat = 2047 from rfl] at hexp
  refine BitVec.eq_of_toNat_eq ((toNat_fractionBits _).trans ?_)
  simp only [magnitude, signBit, infinity, binade] at *
  show _ = 0
  omega

/-- Negation turns the sign bit and nothing else. -/
theorem toNat_toBits_neg {x : Float} (h : magnitude x ≤ infinity) :
    (-x).toBits.toNat = if isNegative x then magnitude x else signBit + magnitude x := by
  have hs : isNegative x = true ↔ signBit ≤ x.toBits.toNat := decide_eq_true_iff
  have hlt := x.toBits.toNat_lt
  have hb : x.toModel.toBits.toBitVec.toNat = x.toBits.toNat := rfl
  have hneg : (-x).toBits.toNat = _ :=
    congrArg BitVec.toNat (pack_neg_unpack (fractionBits_eq_zero h))
  rw [hneg, toNat_packComponents, toNat_toBitVec_neg, toNat_signBits, toNat_exponentBits,
    toNat_fractionBits, magnitude, hb]
  simp only [signBit, binade] at hs ⊢
  split
  case isTrue hx =>
    have := hs.mp hx
    omega
  case isFalse hx =>
    have := mt hs.mpr hx
    omega

theorem magnitude_neg {x : Float} (h : magnitude x ≤ infinity) : magnitude (-x) = magnitude x := by
  rw [magnitude, toNat_toBits_neg h]
  simp only [infinity, binade, signBit] at *
  split <;> omega

theorem isNegative_neg {x : Float} (h : magnitude x ≤ infinity) :
    isNegative (-x) = !isNegative x := by
  rw [isNegative, toNat_toBits_neg h]
  cases isNegative x
  case false => exact decide_eq_true (Nat.le_add_right signBit _)
  case true => exact decide_eq_false (Nat.not_le_of_lt (Nat.lt_of_le_of_lt h (by decide)))

/-- A float is made of its sign and its magnitude. -/
theorem eq_of_magnitude_eq {x y : Float} (hs : isNegative x = isNegative y)
    (hm : magnitude x = magnitude y) : x = y := by
  have hx := x.toBits.toNat_lt
  have hy := y.toBits.toNat_lt
  have hbits : x.toBits.toNat = y.toBits.toNat := by
    simp only [isNegative, decide_eq_decide] at hs
    simp only [magnitude, signBit] at hs hm
    omega
  rw [← ofBits_toBits x, UInt64.toNat_inj.mp hbits, ofBits_toBits]

end Formulary.Number
