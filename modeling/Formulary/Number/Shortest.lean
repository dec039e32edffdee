import Formulary.Number.Decimal

/-!
# The shortest decimal of a float

Of the decimals that are read back as a given float, `Number.shortest` takes one with the fewest
digits, and of those the nearest to the float's exact value. The search looks at one digit, two
digits and so on up to seventeen; of each length only the two `neighbours` of the exact value can be
meant, and the nearer one is tried first. That the result is read back as the float holds for every
finite pattern (`nearest_shortest`), because a candidate is tried by reading it and the exact value
stands behind them all.
-/

namespace Formulary.Number

/-- The exact value of a pattern. Halving is multiplying by five and moving the point. -/
def exactDecimal (pattern : Nat) : Decimal :=
  let halvings := unitScale - doublings pattern
  ⟨(significand pattern <<< (doublings pattern - unitScale)) * Nat.pow 5 halvings, -halvings⟩

/-- The two decimals of `count` digits around `d`, which has `length` digits, the nearer one first.
When `d` lies halfway, the upper one comes first. -/
def neighbours (d : Decimal) (length count : Nat) : List Decimal :=
  let dropped := length - count
  let cut := d.coefficient / Nat.pow 10 dropped
  let below := Decimal.trim ⟨cut, d.exponent + dropped⟩
  let above := Decimal.trim ⟨cut + 1, d.exponent + dropped⟩
  if 2 * (d.coefficient % Nat.pow 10 dropped) < Nat.pow 10 dropped then [below, above]
  else [above, below]

/-- Seventeen digits tell any two floats apart. -/
def digitCounts : List Nat :=
  List.range' 1 17

/-- The fewest digits that are read back as `pattern`, nearest to its value. -/
def shortest (pattern : Nat) : Decimal :=
  let exact := exactDecimal pattern
  let length := exact.digits.length
  let found := digitCounts.findSome? fun count =>
    (neighbours exact length count).find? (·.nearest == pattern)
  found.getD exact

/-! ## Reading back -/

/-- Halving `u - k` times is multiplying by five and moving the point as often. -/
theorem shiftLeft_mul_five_pow (m k u : Nat) :
    ((m <<< (k - u)) * Nat.pow 5 (u - k)) <<< u = (m <<< k) * Nat.pow 10 (u - k) := by
  simp only [Nat.shiftLeft_eq, Nat.pow_eq]
  have h2 : 2 ^ (k - u) * 2 ^ u = 2 ^ k * 2 ^ (u - k) := by
    rw [← Nat.pow_add, ← Nat.pow_add, show k - u + u = k + (u - k) by omega]
  have h10 : 10 ^ (u - k) = 2 ^ (u - k) * 5 ^ (u - k) := Nat.mul_pow 2 5 (u - k)
  calc m * 2 ^ (k - u) * 5 ^ (u - k) * 2 ^ u
      = m * (2 ^ (k - u) * 2 ^ u) * 5 ^ (u - k) := by ac_rfl
    _ = m * 2 ^ k * 10 ^ (u - k) := by rw [h2, h10]; ac_rfl

theorem nearest_exactDecimal {pattern : Nat} (h : pattern ≤ infinity) :
    (exactDecimal pattern).nearest = pattern := by
  have hz : (exactDecimal pattern).zeros = 0 := by simp [exactDecimal, Decimal.zeros]
  have hp : (exactDecimal pattern).places = unitScale - doublings pattern := by
    simp [exactDecimal, Decimal.places]
  rw [Decimal.nearest, hz, hp, nearestQuotient]
  show nearest (((significand pattern <<< (doublings pattern - unitScale)) *
    Nat.pow 5 (unitScale - doublings pattern) * 1) <<< unitScale) _ = pattern
  rw [Nat.mul_one, shiftLeft_mul_five_pow]
  exact nearest_units_mul h (Nat.pow_pos (by decide))

/-- The shortest decimal is read back as the pattern that it shows. -/
theorem nearest_shortest {pattern : Nat} (h : pattern ≤ infinity) :
    (shortest pattern).nearest = pattern := by
  simp only [shortest]
  generalize hf : List.findSome? _ digitCounts = found
  cases found with
  | none => exact nearest_exactDecimal h
  | some d =>
    obtain ⟨count, _, hc⟩ := List.exists_of_findSome?_eq_some hf
    simpa using List.find?_some hc

end Formulary.Number
