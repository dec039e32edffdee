/-!
# Rounding a quotient to the nearest float

The floats from zero upwards are numbered by their bit patterns `0, 1, 2, …`, in increasing order.
The *magnitude* of a float is the pattern of its absolute value (`magnitude`), and `infinity` is the
first pattern that is not finite. Each finite pattern stands for a whole multiple of the least
positive float (`units`), and `nearest` goes back: it takes a quotient of two naturals, in the same
unit, to the pattern closest to it.

`roundHalfEven` gives a natural at most one half away, and of two that are one half away the even
one. Therefore `nearest` gives a pattern that is closer to the quotient than all others, or as close
and even (`nearest_closer`), where infinity stands for the power of two after the largest float. In
particular a pattern is nearest to its own value (`nearest_units_mul`).
-/

namespace Formulary.Number

/-! ## Patterns -/

/-- The least positive float is `2 ^ -unitScale`. -/
def unitScale : Nat := 1074

/-- The number of patterns in one binade, and the least significand of a normal float. -/
def binade : Nat := 0x10000000000000

/-- The first pattern that is not finite. -/
def infinity : Nat := 2047 * binade

/-- The patterns from here on have their sign bit set. -/
def signBit : Nat := 0x8000000000000000

/-- How often the significand of a pattern is doubled. The first two binades share a spacing. -/
def doublings (pattern : Nat) : Nat :=
  pattern / binade - 1

/-- The significand of a pattern, a whole number. -/
def significand (pattern : Nat) : Nat :=
  pattern - doublings pattern * binade

/-- The value of a pattern in multiples of the least positive float. -/
def units (pattern : Nat) : Nat :=
  significand pattern <<< doublings pattern

/-- The float with a given pattern. -/
def ofPattern (pattern : Nat) : Float :=
  Float.ofBits (UInt64.ofNat pattern)

/-- The pattern of the absolute value of a float. -/
def magnitude (x : Float) : Nat :=
  x.toBits.toNat % signBit

/-- The sign bit of a float, which is also set in the negative zero. -/
def isNegative (x : Float) : Bool :=
  signBit ≤ x.toBits.toNat

/-- The not-a-number, written with the quiet bit alone. -/
def nan : Float :=
  ofPattern (infinity + binade / 2)

/-! ## Rounding -/

/-- The natural nearest to `n / d`; halfway, the even one. -/
def roundHalfEven (n d : Nat) : Nat :=
  match compare (2 * (n % d)) d with
  | .lt => n / d
  | .eq => n / d + n / d % 2
  | .gt => n / d + 1

/-- The pattern nearest to `n / d` multiples of the least positive float; halfway, the even one.
Rounding the significand up to the next power of two carries into the next binade by itself. -/
def nearest (n d : Nat) : Nat :=
  let k := (n / d).log2 - 52
  min (k * binade + roundHalfEven n (d <<< k)) infinity

/-- The pattern of the float nearest to `n / d`. -/
def nearestQuotient (n d : Nat) : Nat :=
  nearest (n <<< unitScale) d

/-- The float nearest to an integer. -/
def ofInt (i : Int) : Float :=
  let x := ofPattern (nearestQuotient i.natAbs 1)
  if i < 0 then -x else x

/-! ## The nearest natural -/

/-- How far two naturals are apart. -/
def distance (m n : Nat) : Nat :=
  m - n + (n - m)

theorem roundHalfEven_cases (n d : Nat) :
    roundHalfEven n d = n / d ∧ 2 * (n % d) ≤ d ∧ (2 * (n % d) = d → n / d % 2 = 0) ∨
      roundHalfEven n d = n / d + 1 ∧ d ≤ 2 * (n % d) ∧ (2 * (n % d) = d → n / d % 2 = 1) := by
  unfold roundHalfEven
  split
  case h_1 h =>
    have := Nat.compare_eq_lt.mp h
    exact .inl ⟨rfl, by omega, by omega⟩
  case h_2 h =>
    have := Nat.compare_eq_eq.mp h
    rcases Nat.mod_two_eq_zero_or_one (n / d) with he | ho
    · exact .inl ⟨by omega, by omega, fun _ => he⟩
    · exact .inr ⟨by omega, by omega, fun _ => ho⟩
  case h_3 h =>
    have := Nat.compare_eq_gt.mp h
    exact .inr ⟨rfl, by omega, by omega⟩

theorem le_roundHalfEven {n d m : Nat} (hd : 0 < d) (h : m * d ≤ n) : m ≤ roundHalfEven n d := by
  have hm : m ≤ n / d := (Nat.le_div_iff_mul_le hd).mpr h
  rcases roundHalfEven_cases n d with ⟨h, -⟩ | ⟨h, -⟩ <;> omega

theorem roundHalfEven_le {n d m : Nat} (hd : 0 < d) (h : n < m * d) : roundHalfEven n d ≤ m := by
  have hm : n / d < m := (Nat.div_lt_iff_lt_mul hd).mpr h
  rcases roundHalfEven_cases n d with ⟨h, -⟩ | ⟨h, -⟩ <;> omega

/-- Rounding goes at most one half away. -/
theorem two_mul_distance_roundHalfEven (n : Nat) {d : Nat} (hd : 0 < d) :
    2 * distance n (roundHalfEven n d * d) ≤ d := by
  have hn := Nat.div_add_mod' n d
  have hlt := Nat.mod_lt n hd
  unfold distance
  rcases roundHalfEven_cases n d with ⟨h, hle, -⟩ | ⟨h, hle, -⟩
  · rw [h]
    omega
  · rw [h, Nat.add_one_mul (n / d)]
    omega

/-- If rounding goes one half away, it goes to an even number. -/
theorem even_roundHalfEven {n d : Nat} (hd : 0 < d)
    (h : 2 * distance n (roundHalfEven n d * d) = d) : roundHalfEven n d % 2 = 0 := by
  have hn := Nat.div_add_mod' n d
  have hlt := Nat.mod_lt n hd
  unfold distance at h
  rcases roundHalfEven_cases n d with ⟨hr, hle, he⟩ | ⟨hr, hle, ho⟩
  · rw [hr] at h ⊢
    exact he (by omega)
  · rw [hr, Nat.add_one_mul (n / d)] at h
    have hodd := ho (by omega)
    omega

/-- The nearest natural is closer than any other one, or as close and even. -/
theorem roundHalfEven_closer {n d j : Nat} (hd : 0 < d) (hj : j ≠ roundHalfEven n d) :
    distance n (roundHalfEven n d * d) < distance n (j * d) ∨
      distance n (roundHalfEven n d * d) = distance n (j * d) ∧ roundHalfEven n d % 2 = 0 := by
  have hhalf := two_mul_distance_roundHalfEven n hd
  have heven (h : 2 * distance n (roundHalfEven n d * d) = d) := even_roundHalfEven hd h
  generalize roundHalfEven n d = m at *
  have hstep : j * d + d ≤ m * d ∨ m * d + d ≤ j * d := by
    rw [← Nat.succ_mul, ← Nat.succ_mul]
    exact (Nat.lt_or_gt_of_ne hj).imp (Nat.mul_le_mul_right d) (Nat.mul_le_mul_right d)
  unfold distance at *
  by_cases h : 2 * (n - m * d + (m * d - n)) = d
  · have hm := heven h
    omega
  · omega

/-! ## The order of patterns -/

/-- In one binade, the values of the patterns are the multiples of a power of two. -/
theorem units_add {k m : Nat} (h : k = 0 ∨ binade ≤ m) (h' : m ≤ 2 * binade) :
    units (k * binade + m) = m <<< k := by
  rcases Nat.lt_or_eq_of_le h' with hlt | rfl
  · have hk : doublings (k * binade + m) = k := by
      simp only [doublings, binade] at *
      omega
    rw [units, significand, hk, Nat.add_sub_cancel_left]
  · have hk : doublings (k * binade + 2 * binade) = k + 1 := by
      simp only [doublings, binade] at *
      omega
    have hm : significand (k * binade + 2 * binade) = binade := by
      rw [significand, hk]
      simp only [binade]
      omega
    rw [units, hk, hm, Nat.shiftLeft_succ_inside]

theorem exists_binade (pattern : Nat) :
    ∃ k m, pattern = k * binade + m ∧ (k = 0 ∨ binade ≤ m) ∧ m < 2 * binade := by
  refine ⟨doublings pattern, significand pattern, ?_, ?_, ?_⟩ <;>
    simp only [significand, doublings, binade] <;> omega

theorem units_lt_units {p q : Nat} (h : p < q) : units p < units q := by
  have hsucc (r : Nat) : units r < units (r + 1) := by
    obtain ⟨k, m, rfl, hm, hlt⟩ := exists_binade r
    rw [Nat.add_assoc, units_add hm (Nat.le_of_lt hlt), units_add (by omega) hlt,
      Nat.shiftLeft_eq, Nat.shiftLeft_eq]
    exact Nat.mul_lt_mul_of_pos_right (Nat.lt_succ_self m) (Nat.two_pow_pos k)
  induction h with
  | refl => exact hsucc p
  | step _ ih => exact Nat.lt_trans ih (hsucc _)

theorem units_injective {p q : Nat} (h : units p = units q) : p = q := by
  rcases Nat.lt_trichotomy p q with hlt | heq | hlt
  · exact absurd h (Nat.ne_of_lt (units_lt_units hlt))
  · exact heq
  · exact absurd h (Nat.ne_of_gt (units_lt_units hlt))

/-- A value is a multiple of the spacing in a binade, or lies below the binade. -/
theorem units_eq_or_lt (k pattern : Nat) :
    (∃ j, units pattern = j <<< k) ∨ k ≠ 0 ∧ units pattern < binade <<< k := by
  obtain ⟨i, m, rfl, hm, hlt⟩ := exists_binade pattern
  rw [units_add hm (Nat.le_of_lt hlt)]
  rcases Nat.lt_or_ge i k with hi | hi
  · refine .inr ⟨by omega, ?_⟩
    calc m <<< i < (2 * binade) <<< i := by
          rw [Nat.shiftLeft_eq, Nat.shiftLeft_eq]
          exact Nat.mul_lt_mul_of_pos_right hlt (Nat.two_pow_pos i)
      _ = binade <<< (i + 1) := (Nat.shiftLeft_succ_inside binade i).symm
      _ ≤ binade <<< k := by
          rw [Nat.shiftLeft_eq, Nat.shiftLeft_eq]
          exact Nat.mul_le_mul_left _ (Nat.pow_le_pow_right Nat.two_pos hi)
  · refine .inl ⟨m <<< (i - k), ?_⟩
    rw [← Nat.shiftLeft_add, Nat.sub_add_cancel hi]

/-! ## The nearest pattern -/

/-- The number of doublings that `nearest` chooses is that of the binade of the quotient. -/
theorem binade_bounds {n d k : Nat} (hd : 0 < d) (hk : k = (n / d).log2 - 52) :
    (k = 0 ∨ binade * d <<< k ≤ n) ∧ n < 2 * binade * d <<< k := by
  have hb : binade = 2 ^ 52 := rfl
  constructor
  · rcases Nat.eq_zero_or_pos k with h | h
    · exact .inl h
    · have hq : n / d ≠ 0 := by
        intro hq
        rw [hq, Nat.log2_zero, Nat.zero_sub] at hk
        exact Nat.ne_of_gt h hk
      have hle : 2 ^ (52 + k) ≤ n / d := (Nat.le_log2 hq).mp (by omega)
      right
      rw [Nat.shiftLeft_eq, Nat.mul_comm d, ← Nat.mul_assoc, hb, ← Nat.pow_add]
      exact (Nat.le_div_iff_mul_le hd).mp hle
  · have hlt : n / d < 2 ^ (53 + k) :=
      Nat.lt_of_lt_of_le Nat.lt_log2_self (Nat.pow_le_pow_right Nat.two_pos (by omega))
    rw [Nat.shiftLeft_eq, Nat.mul_comm d, ← Nat.mul_assoc, hb, ← Nat.pow_succ', ← Nat.pow_add]
    exact (Nat.div_lt_iff_lt_mul hd).mp hlt

/-- Rounded to the spacing of its binade, a quotient has the pattern that is closest to it. -/
theorem binade_closer {n d k m pattern : Nat} (hd : 0 < d) (hk : k = (n / d).log2 - 52)
    (hm : m = roundHalfEven n (d <<< k)) (hne : pattern ≠ k * binade + m) :
    distance n (units (k * binade + m) * d) < distance n (units pattern * d) ∨
      distance n (units (k * binade + m) * d) = distance n (units pattern * d) ∧
        (k * binade + m) % 2 = 0 := by
  obtain ⟨hlo, hhi⟩ := binade_bounds hd hk
  have hstep : 0 < d <<< k := by
    rw [Nat.shiftLeft_eq]
    exact Nat.mul_pos hd (Nat.two_pow_pos k)
  have hmlo : k = 0 ∨ binade ≤ m := hlo.imp_right fun h => hm ▸ le_roundHalfEven hstep h
  have hmhi : m ≤ 2 * binade := hm ▸ roundHalfEven_le hstep hhi
  have hmul (j : Nat) : j <<< k * d = j * d <<< k := by
    rw [Nat.shiftLeft_eq, Nat.shiftLeft_eq, Nat.mul_assoc, Nat.mul_comm d]
  have heven : (k * binade + m) % 2 = m % 2 := by
    simp only [binade]
    omega
  rw [units_add hmlo hmhi, hmul, heven]
  rcases units_eq_or_lt k pattern with ⟨j, hj⟩ | ⟨hk0, hlt⟩
  · have hjm : j ≠ m := by
      rintro rfl
      exact hne (units_injective (hj.trans (units_add hmlo hmhi).symm))
    rw [hj, hmul, hm]
    exact roundHalfEven_closer hstep (hm ▸ hjm)
  · -- the first pattern of the binade lies between the pattern and the quotient
    have hn : binade * d <<< k ≤ n := hlo.resolve_left hk0
    have hp : units pattern * d < binade * d <<< k := by
      rw [← hmul]
      exact Nat.mul_lt_mul_of_pos_right hlt hd
    have hfirst : distance n (m * d <<< k) ≤ distance n (binade * d <<< k) := by
      rcases Decidable.em (binade = m) with rfl | hb
      · exact Nat.le_refl _
      · rw [hm] at hb ⊢
        exact (roundHalfEven_closer hstep hb).elim Nat.le_of_lt fun h => Nat.le_of_eq h.1
    unfold distance at *
    omega

/-- The nearest pattern is closer to the quotient than any other one, or as close and even. -/
theorem nearest_closer {n d pattern : Nat} (hd : 0 < d) (hp : pattern ≤ infinity)
    (hne : pattern ≠ nearest n d) :
    distance n (units (nearest n d) * d) < distance n (units pattern * d) ∨
      distance n (units (nearest n d) * d) = distance n (units pattern * d) ∧
        nearest n d % 2 = 0 := by
  have hcloser (p : Nat) := @binade_closer n d _ _ p hd rfl rfl
  simp only [nearest] at hne ⊢
  generalize (n / d).log2 - 52 = k at *
  generalize k * binade + roundHalfEven n (d <<< k) = rounded at *
  rcases Nat.lt_or_ge infinity rounded with hlt | hle
  · -- what is rounded to more than infinity is itself more
    rw [Nat.min_eq_right (Nat.le_of_lt hlt)] at hne ⊢
    have hinfinity := hcloser infinity (Nat.ne_of_lt hlt)
    have hbelow : units pattern * d < units infinity * d :=
      Nat.mul_lt_mul_of_pos_right (units_lt_units (Nat.lt_of_le_of_ne hp hne)) hd
    have habove : units infinity * d < units rounded * d :=
      Nat.mul_lt_mul_of_pos_right (units_lt_units hlt) hd
    unfold distance at *
    omega
  · rw [Nat.min_eq_left hle] at hne ⊢
    exact hcloser pattern hne

theorem nearest_le_infinity (n d : Nat) : nearest n d ≤ infinity :=
  Nat.min_le_right _ _

/-- A quotient up to the value of a pattern is nearest to that pattern or to one below it. -/
theorem nearest_le {n d pattern : Nat} (hd : 0 < d) (h : n ≤ units pattern * d) :
    nearest n d ≤ pattern := by
  rcases Nat.lt_or_ge pattern (nearest n d) with hlt | hle
  · have hp : pattern ≤ infinity := Nat.le_trans (Nat.le_of_lt hlt) (nearest_le_infinity n d)
    have hcloser := nearest_closer hd hp (Nat.ne_of_lt hlt)
    have hbelow := Nat.mul_lt_mul_of_pos_right (units_lt_units hlt) hd
    unfold distance at hcloser
    omega
  · exact hle

/-- A finite pattern is nearest to its own value. -/
theorem nearest_units_mul {pattern d : Nat} (hp : pattern ≤ infinity) (hd : 0 < d) :
    nearest (units pattern * d) d = pattern := by
  by_cases hne : pattern = nearest (units pattern * d) d
  · exact hne.symm
  · have hcloser := nearest_closer hd hp hne
    have hsame : units (nearest (units pattern * d) d) * d = units pattern * d := by
      unfold distance at hcloser
      omega
    exact units_injective (Nat.eq_of_mul_eq_mul_right hd hsame)

end Formulary.Number
