/-
# Proofs.Number.Rational -- quotients as the numbers they denote

Numbers are rounded and written with quotients of whole numbers that are never reduced.  Two
quotients that denote the same number differ, so whatever is computed from one is described here by
the number alone: powers and shifts (`toRat_ofPower`, `toRat_overTens`), comparisons
(`belowTens_iff`), whole parts (`floor_eq`) and both ways of rounding (`roundEven_eq`,
`nearer_eq`).
-/
import Mathlib.Algebra.Order.Floor.Semifield
import Mathlib.Data.Rat.Floor
import Mathlib.Tactic.Linarith
import LogInterface.Number.Decimal

namespace LogInterface.Number

set_option autoImplicit false

namespace Ratio

def toRat (r : Ratio) : ℚ := r.num / r.den

variable {r : Ratio}

/-! ## Powers -/

theorem ofPower_den_pos {base : Nat} (positive : 0 < base) (m : Nat) (q : Int) :
    0 < (ofPower m base q).den := by
  rw [ofPower]
  split
  · exact Nat.pow_pos positive
  · exact Nat.one_pos

theorem overTens_den_pos (positive : 0 < r.den) (e : Int) : 0 < (r.overTens e).den := by
  rw [overTens]
  split
  · exact positive
  · exact Nat.mul_pos positive (Nat.pow_pos (by decide))

/-- A power with a negative exponent, or with another one. -/
theorem zpow_natAbs (x : ℚ) (e : Int) :
    x ^ e = if e < 0 then (x ^ e.natAbs)⁻¹ else x ^ e.natAbs := by
  split
  · rename_i negative
    rw [← zpow_natCast, Int.natCast_natAbs, abs_of_neg negative, zpow_neg, inv_inv]
  · rename_i positive
    rw [← zpow_natCast, Int.natCast_natAbs, abs_of_nonneg (by omega)]

theorem toRat_ofPower (m base : Nat) (q : Int) : (ofPower m base q).toRat = m * (base : ℚ) ^ q := by
  rw [ofPower, zpow_natAbs]
  split
  · rw [toRat, Nat.pow_eq, Nat.cast_pow, div_eq_mul_inv]
  · rw [toRat, Nat.pow_eq, Nat.cast_mul, Nat.cast_pow, Nat.cast_one, div_one]

theorem toRat_overTens (r : Ratio) (e : Int) : (r.overTens e).toRat = r.toRat / (10 : ℚ) ^ e := by
  rw [overTens, zpow_natAbs]
  split
  · rw [toRat, toRat, Nat.pow_eq, Nat.cast_mul, Nat.cast_pow, div_inv_eq_mul]
    exact mul_div_right_comm _ _ _
  · rw [toRat, toRat, Nat.pow_eq, Nat.cast_mul, Nat.cast_pow, div_div]
    rfl

/-- A significand that is doubled, with a smaller exponent, makes the same number. -/
theorem doubled_eq (m k : Nat) (q : Int) :
    ((m * Nat.pow 2 k : Nat) : ℚ) * 2 ^ (q - k) = m * 2 ^ q := by
  rw [Nat.cast_mul, Nat.pow_eq, Nat.cast_pow, mul_assoc, Nat.cast_ofNat, ← zpow_natCast,
    ← zpow_add₀ (by norm_num), add_sub_cancel]

/-! ## Comparisons -/

theorem num_lt_iff (positive : 0 < r.den) : r.num < r.den ↔ r.toRat < 1 := by
  rw [toRat, div_lt_one (by exact_mod_cast positive), Nat.cast_lt]

theorem belowTens_iff (positive : 0 < r.den) (e : Int) :
    r.belowTens e = true ↔ r.toRat < (10 : ℚ) ^ e := by
  have power : (0 : ℚ) < 10 ^ e := zpow_pos (by norm_num) e
  rw [belowTens, decide_eq_true_iff, num_lt_iff (overTens_den_pos positive e), toRat_overTens,
    div_lt_one power]

/-- A whole number lies above the quotient, or on it. -/
theorem num_le_mul_iff (positive : 0 < r.den) (c : Nat) :
    r.num ≤ c * r.den ↔ r.toRat ≤ c := by
  rw [toRat, div_le_iff₀ (by exact_mod_cast positive)]
  norm_cast

/-- A whole number lies below the quotient, or on it. -/
theorem mul_le_num_iff (positive : 0 < r.den) (c : Nat) :
    c * r.den ≤ r.num ↔ (c : ℚ) ≤ r.toRat := by
  rw [toRat, le_div_iff₀ (by exact_mod_cast positive)]
  norm_cast

/-! ## Rounding -/

theorem floor_eq (r : Ratio) : r.floor = ⌊r.toRat⌋₊ := by
  rw [floor, toRat, Nat.floor_div_eq_div]

/-- What is left of a quotient behind its whole part. -/
theorem mod_div_den (positive : 0 < r.den) :
    ((r.num % r.den : Nat) : ℚ) / r.den = r.toRat - ⌊r.toRat⌋₊ := by
  have den : (r.den : ℚ) ≠ 0 := by exact_mod_cast positive.ne'
  have parts : (r.num : ℚ) = r.den * (r.num / r.den : Nat) + (r.num % r.den : Nat) := by
    exact_mod_cast (Nat.div_add_mod r.num r.den).symm
  rw [← floor_eq, floor, toRat, div_eq_iff den, sub_mul, div_mul_cancel₀ _ den]
  linarith

theorem roundEven_eq (positive : 0 < r.den) :
    r.roundEven =
      if 1 < 2 * (r.toRat - ⌊r.toRat⌋₊) ∨
          (2 * (r.toRat - ⌊r.toRat⌋₊) = 1 ∧ ⌊r.toRat⌋₊ % 2 = 1) then
        ⌊r.toRat⌋₊ + 1
      else ⌊r.toRat⌋₊ := by
  have den : (0 : ℚ) < r.den := by exact_mod_cast positive
  have rest : 2 * (r.toRat - ⌊r.toRat⌋₊) = ((2 * (r.num % r.den) : Nat) : ℚ) / r.den := by
    rw [← mod_div_den positive, Nat.cast_mul, mul_div_assoc]
    rfl
  have more : 2 * (r.num % r.den) > r.den ↔ 1 < 2 * (r.toRat - ⌊r.toRat⌋₊) := by
    rw [rest, one_lt_div den, Nat.cast_lt]
  have tie : 2 * (r.num % r.den) = r.den ↔ 2 * (r.toRat - ⌊r.toRat⌋₊) = 1 := by
    rw [rest, div_eq_one_iff_eq den.ne', Nat.cast_inj]
  rw [roundEven, ← floor, floor_eq, if_congr (or_congr more (and_congr tie Iff.rfl)) rfl rfl]

end Ratio

theorem nearer_eq {value : Ratio} (positive : 0 < value.den) (c : Nat) :
    nearer value c = if 2 * (value.toRat - c) < 1 then c else c + 1 := by
  have den : (0 : ℚ) < value.den := by exact_mod_cast positive
  have near : 2 * (value.num - c * value.den) < value.den ↔ 2 * (value.toRat - c) < 1 := by
    have number : 2 * (value.toRat - c) * value.den = 2 * (value.num - c * value.den) := by
      rw [Ratio.toRat, mul_assoc, sub_mul, div_mul_cancel₀ _ den.ne']
    rcases Nat.le_total (c * value.den) value.num with above | below
    · have whole : ((value.num - c * value.den : Nat) : ℚ) = value.num - c * value.den := by
        rw [Nat.cast_sub above, Nat.cast_mul]
      rw [← mul_lt_mul_iff_of_pos_right den, number, one_mul, ← whole]
      norm_cast
    · have small : value.toRat ≤ c := (Ratio.num_le_mul_iff positive c).mp below
      have nothing : value.num - c * value.den = 0 := Nat.sub_eq_zero_of_le below
      rw [nothing, Nat.mul_zero]
      exact iff_of_true positive (by linarith)
  rw [nearer, if_congr near rfl rfl]

end LogInterface.Number
