/-! # Rounding a quotient

A quotient of two naturals rounded to the nearest whole number, a tie going to the even
neighbour.
-/

namespace GameExport

/-- The whole number nearest to `numerator / denominator`; a tie goes to the even one. -/
def roundHalfEven (numerator denominator : Nat) : Nat :=
  let whole := numerator / denominator
  let rest := numerator % denominator
  if 2 * rest < denominator then whole
  else if denominator < 2 * rest then whole + 1
  else whole + whole % 2

theorem roundHalfEven_within_half (numerator denominator : Nat)
    (positive : 0 < denominator) :
    2 * numerator ≤ (2 * roundHalfEven numerator denominator + 1) * denominator ∧
      2 * roundHalfEven numerator denominator * denominator ≤
        2 * numerator + denominator := by
  have division := Nat.div_add_mod numerator denominator
  have restSmall := Nat.mod_lt numerator positive
  have expand : numerator / denominator * denominator =
      denominator * (numerator / denominator) := Nat.mul_comm _ _
  unfold roundHalfEven
  simp only
  split
  · constructor <;> grind
  · split
    · constructor <;> grind
    · rcases Nat.mod_two_eq_zero_or_one (numerator / denominator) with parity | parity <;>
        rw [parity] <;> constructor <;> grind

end GameExport
