import Formulary.Proofs.Number.Numeral

/-!
# Comparing floats

Floats that compare as equal are the same float, or they are two zeros, whose signs do not count
(`Number.eq_of_beq`); either way they have the same magnitude. Not-a-number alone differs from
itself, so that a finite float compares as equal to itself (`Number.beq_self`).
-/

namespace Formulary.Number

open Float.Model

/-! ## Unpacked floats -/

theorem unpacked_beq_self {u : UnpackedFloat} (h : u ≠ .notANumber) : u.beq u = true := by
  cases u with
  | infinity sign => cases sign <;> rfl
  | notANumber => exact absurd rfl h
  | zero sign => rfl
  | finite sign m e hm =>
    have he : compare e e = .eq := by simp
    have hm : compare m m = .eq := by simp
    cases sign
    case positive =>
      show (some ((compare e e).then (compare m m)) == some .eq) = true
      rw [he, hm]
      rfl
    case negative =>
      show (some ((compare e e).then (compare m m)).swap == some .eq) = true
      rw [he, hm]
      rfl

theorem eq_of_compare_then {e e' : Int} {m m' : Nat}
    (h : (compare e e').then (compare m m') = .eq) : e = e' ∧ m = m' := by
  rw [Ordering.then_eq_eq] at h
  exact ⟨Std.compare_eq_iff_eq.mp h.1, Std.compare_eq_iff_eq.mp h.2⟩

theorem unpacked_eq_of_beq {u v : UnpackedFloat} (h : u.beq v = true) :
    u = v ∨ ∃ s s', u = .zero s ∧ v = .zero s' := by
  have hcompare : u.compare v = some .eq := beq_iff_eq.mp h
  cases u with
  | notANumber => cases hcompare
  | infinity s =>
    cases v with
    | infinity s' => cases s <;> cases s' <;> first | exact .inl rfl | cases hcompare
    | _ => cases s <;> cases hcompare
  | zero s =>
    cases v with
    | zero s' => exact .inr ⟨s, s', rfl, rfl⟩
    | notANumber => cases hcompare
    | infinity s' | finite s' => cases s' <;> cases hcompare
  | finite s m e hm =>
    cases v with
    | finite s' m' e' hm' =>
      cases s <;> cases s'
      case positive.positive =>
        obtain ⟨rfl, rfl⟩ := eq_of_compare_then (Option.some.inj hcompare)
        exact .inl rfl
      case negative.negative =>
        -- the order of the magnitudes is turned round
        have hswap := Ordering.swap_eq_eq.mp (Option.some.inj hcompare)
        obtain ⟨rfl, rfl⟩ := eq_of_compare_then hswap
        exact .inl rfl
      all_goals cases hcompare
    | infinity s' => cases s' <;> cases hcompare
    | _ => cases s <;> cases hcompare

/-! ## Floats -/

/-- A float is made of what it unpacks to. -/
theorem ofModel_pack_unpack (x : Float) : Float.ofModel (Float.Model.pack x.toModel.unpack) = x :=
  ofBits_toBits x

theorem magnitude_eq_zero_of_unpack {x : Float} {s : UnpackedFloat.Sign}
    (h : x.toModel.unpack = .zero s) : magnitude x = 0 := by
  rw [← ofModel_pack_unpack x, h]
  cases s <;> rfl

/-- Floats that compare as equal are equal, but for the signs of zeros. -/
theorem eq_of_beq {x y : Float} (h : (x == y) = true) :
    x = y ∨ magnitude x = 0 ∧ magnitude y = 0 := by
  rcases unpacked_eq_of_beq (show x.toModel.unpack.beq y.toModel.unpack = true from h) with
    he | ⟨s, s', hx, hy⟩
  · left
    rw [← ofModel_pack_unpack x, he, ofModel_pack_unpack y]
  · exact .inr ⟨magnitude_eq_zero_of_unpack hx, magnitude_eq_zero_of_unpack hy⟩

theorem magnitude_eq_of_beq {x y : Float} (h : (x == y) = true) : magnitude x = magnitude y := by
  rcases eq_of_beq h with rfl | ⟨hx, hy⟩
  · rfl
  · rw [hx, hy]

/-- Only not-a-number differs from itself. -/
theorem beq_self {x : Float} (h : IsFinite x) : (x == x) = true := by
  have hexp : exponentBits x.toBits.toBitVec ≠ -1#11 := by
    intro he
    have h1 := toNat_exponentBits x.toBits.toBitVec
    rw [he] at h1
    have h2 : x.toBits.toBitVec.toNat = x.toBits.toNat := rfl
    have h3 : (-1#11).toNat = 2047 := rfl
    simp only [IsFinite, magnitude, signBit, infinity, binade] at h h1
    omega
  refine unpacked_beq_self (u := x.toModel.unpack) ?_
  show UnpackedFloat.unpack binary64 x.toBits.toBitVec ≠ _
  rcases unpack_of_exponentBits_ne hexp with ⟨-, -, hu⟩ | ⟨m, e, hm, hu, -⟩
  · rw [hu]
    intro h
    cases h
  · rw [hu]
    intro h
    cases h

end Formulary.Number
