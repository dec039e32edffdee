import Formulary.Proofs.Number.Numeral
import Mathlib.Algebra.Group.Int.Defs
import Mathlib.Algebra.Group.Nat.Defs

/-!
# Integers as floats

A finite float stands for a whole multiple of the least positive float (`signedUnits`). An integer
becomes the float nearest to it (`isNearest_iff`): no finite float is closer, and of two that are
equally close it is the one with the even pattern. Integers of up to fifty-three binary digits
become floats without any error (`signedUnits_ofInt`).
-/

namespace Formulary.Number

/-- The value of a finite float in multiples of the least positive float. -/
def signedUnits (x : Float) : Int :=
  if isNegative x then -(units (magnitude x) : Int) else units (magnitude x)

/-- How far a finite float is from an integer, in multiples of the least positive float. -/
def distanceTo (x : Float) (i : Int) : Nat :=
  (signedUnits x - i * 2 ^ unitScale).natAbs

/-- No finite float is closer to the integer, and another one that is as close is passed over only
for an even pattern. The sign bit is that of the integer. -/
structure IsNearest (x : Float) (i : Int) : Prop where
  isFinite : IsFinite x
  distance_le : ∀ y, IsFinite y → distanceTo x i ≤ distanceTo y i
  even : ∀ y, IsFinite y → distanceTo y i = distanceTo x i → magnitude y ≠ magnitude x →
    magnitude x % 2 = 0
  isNegative_eq : isNegative x = decide (i < 0)

variable {x : Float} {i : Int}

/-! ## The float of an integer -/

theorem magnitude_ofInt (i : Int) : magnitude (ofInt i) = nearest (i.natAbs <<< unitScale) 1 := by
  have hle := nearest_le_infinity (i.natAbs <<< unitScale) 1
  have hp := magnitude_ofPattern hle
  unfold ofInt nearestQuotient
  split
  · rw [magnitude_neg (by rwa [hp]), hp]
  · exact hp

theorem isNegative_ofInt (i : Int) : isNegative (ofInt i) = decide (i < 0) := by
  have hle := nearest_le_infinity (i.natAbs <<< unitScale) 1
  have hs := isNegative_ofPattern hle
  unfold ofInt nearestQuotient
  split
  case isTrue h =>
    rw [isNegative_neg (by rwa [magnitude_ofPattern hle]), hs, decide_eq_true h]
    rfl
  case isFalse h => rw [hs, decide_eq_false h]

/-! ## Distances -/

theorem mul_two_pow_eq (i : Int) (k : Nat) :
    i * 2 ^ k = if i < 0 then -((i.natAbs <<< k : Nat) : Int) else (i.natAbs <<< k : Nat) := by
  rw [Nat.shiftLeft_eq, Int.natCast_mul, Int.natCast_pow]
  split
  case isTrue h =>
    rw [← Int.neg_mul, Int.ofNat_natAbs_of_nonpos (Int.le_of_lt h), Int.neg_neg]
    rfl
  case isFalse h =>
    rw [Int.natAbs_of_nonneg (Int.not_lt.mp h)]
    rfl

/-- A sign other than that of the integer does not bring a float closer to it. -/
theorem distance_le_distanceTo (x : Float) (i : Int) :
    distance (i.natAbs <<< unitScale) (units (magnitude x)) ≤ distanceTo x i := by
  unfold distance distanceTo signedUnits
  rw [mul_two_pow_eq]
  generalize i.natAbs <<< unitScale = n
  split <;> split <;> omega

theorem distanceTo_eq (h : isNegative x = decide (i < 0)) :
    distanceTo x i = distance (i.natAbs <<< unitScale) (units (magnitude x)) := by
  unfold distance distanceTo signedUnits
  rw [mul_two_pow_eq, h]
  generalize i.natAbs <<< unitScale = n
  simp only [decide_eq_true_eq]
  split <;> omega

/-- What is equally far from two even patterns is closer to a pattern between them. -/
theorem exists_closer_between {n p q : Nat} (hp : p % 2 = 0) (hq : q % 2 = 0) (hlt : p < q)
    (heq : distance n (units p) = distance n (units q)) :
    ∃ pattern, p < pattern ∧ pattern < q ∧ distance n (units pattern) < distance n (units q) := by
  have hlo : p < (p + q) / 2 := by omega
  have hhi : (p + q) / 2 < q := by omega
  have hunits := units_lt_units hlo
  have hunits' := units_lt_units hhi
  refine ⟨(p + q) / 2, hlo, hhi, ?_⟩
  unfold distance at *
  omega

/-! ## The nearest float -/

theorem distanceTo_ofInt_closer (i : Int) {pattern : Nat} (hp : pattern ≤ infinity)
    (hne : pattern ≠ magnitude (ofInt i)) :
    distanceTo (ofInt i) i < distance (i.natAbs <<< unitScale) (units pattern) ∨
      distanceTo (ofInt i) i = distance (i.natAbs <<< unitScale) (units pattern) ∧
        magnitude (ofInt i) % 2 = 0 := by
  rw [distanceTo_eq (isNegative_ofInt i)]
  rw [magnitude_ofInt] at hne ⊢
  have hcloser := nearest_closer Nat.one_pos hp hne
  rwa [Nat.mul_one, Nat.mul_one] at hcloser

theorem distanceTo_ofInt_le (i : Int) {pattern : Nat} (hp : pattern ≤ infinity) :
    distanceTo (ofInt i) i ≤ distance (i.natAbs <<< unitScale) (units pattern) := by
  by_cases hne : pattern = magnitude (ofInt i)
  · exact Nat.le_of_eq (by rw [hne, distanceTo_eq (isNegative_ofInt i)])
  · exact (distanceTo_ofInt_closer i hp hne).elim Nat.le_of_lt fun h => Nat.le_of_eq h.1

theorem isNearest_ofInt (h : IsFinite (ofInt i)) : IsNearest (ofInt i) i := by
  refine ⟨h, fun y hy => ?_, fun y hy heq hne => ?_, isNegative_ofInt i⟩
  · exact Nat.le_trans (distanceTo_ofInt_le i (Nat.le_of_lt hy)) (distance_le_distanceTo y i)
  · rcases distanceTo_ofInt_closer i (Nat.le_of_lt hy) hne with hlt | ⟨-, heven⟩
    · exact absurd (distance_le_distanceTo y i) (by omega)
    · exact heven

/-- There is one float nearest to an integer, unless the integer is beyond all floats. -/
theorem isNearest_iff (h : IsFinite (ofInt i)) : IsNearest x i ↔ x = ofInt i := by
  have hi := isNearest_ofInt h
  refine ⟨fun hx => ?_, fun hx => hx ▸ hi⟩
  have hsame : distanceTo x i = distanceTo (ofInt i) i :=
    Nat.le_antisymm (hx.distance_le _ h) (hi.distance_le x hx.isFinite)
  refine eq_of_magnitude_eq (hx.isNegative_eq.trans hi.isNegative_eq.symm) ?_
  refine Decidable.byContradiction fun hne => ?_
  -- both patterns are even, but none is closer than that of `ofInt i`
  have heven := hx.even _ h hsame.symm (Ne.symm hne)
  have heven' := hi.even x hx.isFinite hsame hne
  have hle (pattern : Nat) (hp : pattern < infinity) :=
    distanceTo_ofInt_le i (Nat.le_of_lt hp)
  rw [distanceTo_eq hx.isNegative_eq, distanceTo_eq hi.isNegative_eq] at hsame
  simp only [distanceTo_eq hi.isNegative_eq] at hle
  rcases Nat.lt_or_gt_of_ne hne with hlt | hgt
  · obtain ⟨pattern, -, hhi, hcloser⟩ := exists_closer_between heven heven' hlt hsame
    exact Nat.not_lt_of_le (hle pattern (Nat.lt_trans hhi h)) hcloser
  · obtain ⟨pattern, -, hhi, hcloser⟩ := exists_closer_between heven' heven hgt hsame.symm
    rw [hsame] at hcloser
    exact Nat.not_lt_of_le (hle pattern (Nat.lt_trans hhi hx.isFinite)) hcloser

/-! ## Integers of bounded size -/

theorem isFinite_ofInt (h : i.natAbs ≤ 2 ^ 64) : IsFinite (ofInt i) := by
  have hunits : units (1087 * binade) = (2 ^ 64) <<< unitScale := by decide +kernel
  have hle : nearest (i.natAbs <<< unitScale) 1 ≤ 1087 * binade := by
    refine nearest_le Nat.one_pos ?_
    rw [hunits, Nat.mul_one, Nat.shiftLeft_eq, Nat.shiftLeft_eq]
    exact Nat.mul_le_mul_right _ h
  rw [IsFinite, magnitude_ofInt]
  exact Nat.lt_of_le_of_lt hle (by decide)

theorem exists_units_eq {n : Nat} (h : n ≤ 2 ^ 53) :
    ∃ pattern ≤ infinity, units pattern = n <<< unitScale := by
  have hpattern (k m : Nat) (hk : k ≤ unitScale) (hm : binade ≤ m) (hm' : m ≤ 2 * binade) :
      ∃ pattern ≤ infinity, units pattern = m <<< k := by
    refine ⟨k * binade + m, ?_, units_add (.inr hm) hm'⟩
    simp only [unitScale, infinity, binade] at *
    omega
  rcases Nat.eq_zero_or_pos n with rfl | hpos
  · exact ⟨0, by decide, rfl⟩
  rcases Nat.lt_or_ge n binade with hlt | hge
  · -- the significand is doubled until it fills its binade
    have hlog : n.log2 < 52 := (Nat.log2_lt (Nat.ne_of_gt hpos)).mpr hlt
    obtain ⟨s, hs⟩ := Nat.exists_eq_add_of_lt hlog
    obtain ⟨hlo, hhi⟩ := (Nat.log2_eq_iff (Nat.ne_of_gt hpos)).mp rfl
    have hsum : n <<< unitScale = n <<< (s + 1) <<< (unitScale - (s + 1)) := by
      rw [← Nat.shiftLeft_add]
      congr 1
      simp only [unitScale]
      omega
    rw [hsum]
    refine hpattern _ _ (Nat.sub_le _ _) ?_ ?_ <;> rw [Nat.shiftLeft_eq]
    · calc binade = 2 ^ (n.log2 + (s + 1)) := by rw [← Nat.add_assoc, ← hs]; rfl
        _ ≤ n * 2 ^ (s + 1) := by rw [Nat.pow_add]; exact Nat.mul_le_mul_right _ hlo
    · calc n * 2 ^ (s + 1) ≤ 2 ^ (n.log2 + 1) * 2 ^ (s + 1) :=
            Nat.mul_le_mul_right _ (Nat.le_of_lt hhi)
        _ = 2 * binade := by rw [← Nat.pow_add, show n.log2 + 1 + (s + 1) = 53 by omega]; rfl
  · exact hpattern unitScale n (Nat.le_refl _) hge h

/-- Integers of up to fifty-three binary digits become floats of the same value. -/
theorem signedUnits_ofInt (h : i.natAbs ≤ 2 ^ 53) :
    signedUnits (ofInt i) = i * 2 ^ unitScale := by
  obtain ⟨pattern, hp, hunits⟩ := exists_units_eq h
  have hm : magnitude (ofInt i) = pattern := by
    rw [magnitude_ofInt, ← hunits, ← Nat.mul_one (units pattern), nearest_units_mul hp Nat.one_pos]
  rw [signedUnits, isNegative_ofInt, hm, hunits, mul_two_pow_eq]
  simp only [decide_eq_true_eq]

end Formulary.Number
