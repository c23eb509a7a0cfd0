/-
# Proofs.Number.Nearest -- the reals that round to a binary number

A number is rounded to the nearest one that a format holds, a tie going to an even significand
(`RoundsTo`).  The interval in which the fewest digits are searched is given by quarters of a step
instead.  It is the same: the next number above is one step away, the one below a step or half a
step, and the ends of the interval lie halfway (`contains_iff_roundsTo`).
-/
import LogInterface.Proofs.Number.Shortest

namespace LogInterface.Number

set_option autoImplicit false

namespace BinaryFormat

/-- Does the format hold the number, if its exponents had no end? -/
def Holds (f : BinaryFormat) (x : ℚ) : Prop :=
  ∃ (n : Nat) (p : Int), n < Nat.pow 2 (f.fraction + 1) ∧ f.least ≤ p ∧ x = n * 2 ^ p

/-- A number as it is decoded: its significand is filled, or its exponent is the least one. -/
structure Canonical (f : BinaryFormat) (m : Nat) (q : Int) : Prop where
  fits : m < Nat.pow 2 (f.fraction + 1)
  least : f.least ≤ q
  filled : m < Nat.pow 2 f.fraction → q = f.least

/-- The number is rounded to `m * 2 ^ q`: the format holds no nearer number, and another one that
is as near only if `m` is even. -/
structure RoundsTo (f : BinaryFormat) (m : Nat) (q : Int) (x : ℚ) : Prop where
  nearest : ∀ y, f.Holds y → |x - m * 2 ^ q| ≤ |x - y|
  even : ∀ y, f.Holds y → y ≠ m * 2 ^ q → |x - m * 2 ^ q| = |x - y| → m % 2 = 0

variable {f : BinaryFormat} {m : Nat} {q : Int}

/-- A step is two halves. -/
theorem two_halves (q : Int) : (2 : ℚ) ^ q = 2 * 2 ^ (q - 1) := by
  rw [← zpow_one_add₀ (by norm_num)]
  congr 1
  omega

/-- A number with a larger exponent is a whole number of steps. -/
theorem whole_steps (n : Nat) {p : Int} (above : q ≤ p) :
    ∃ k : Nat, (n : ℚ) * 2 ^ p = k * 2 ^ q := by
  refine ⟨n * 2 ^ (p - q).toNat, ?_⟩
  have exponent : p = ((p - q).toNat : Int) + q := by omega
  have power : (2 : ℚ) ^ p = 2 ^ (p - q).toNat * 2 ^ q := by
    rw [← zpow_natCast, ← zpow_add₀ (by norm_num), ← exponent]
  rw [power, Nat.cast_mul, Nat.cast_pow, mul_assoc]
  rfl

/-- Numbers with a smaller exponent lie half a step below the least filled significand. -/
theorem le_of_smaller {n : Nat} {p : Int} (fits : n < Nat.pow 2 (f.fraction + 1)) (below : p < q) :
    (n : ℚ) * 2 ^ p ≤ 2 ^ f.fraction * 2 ^ q - 2 ^ (q - 1) := by
  have most : (n : ℚ) ≤ 2 ^ (f.fraction + 1) - 1 := by
    have whole : n + 1 ≤ 2 ^ (f.fraction + 1) := fits
    have cast : (n : ℚ) + 1 ≤ 2 ^ (f.fraction + 1) := by exact_mod_cast whole
    linarith
  have power : (2 : ℚ) ^ p ≤ 2 ^ (q - 1) :=
    zpow_le_zpow_right₀ (by norm_num) (by omega)
  have some : (1 : ℚ) ≤ 2 ^ (f.fraction + 1) := one_le_pow₀ (by norm_num)
  calc (n : ℚ) * 2 ^ p ≤ (2 ^ (f.fraction + 1) - 1) * 2 ^ (q - 1) :=
        mul_le_mul most power (zpow_nonneg (by norm_num) p) (by linarith)
    _ = 2 ^ f.fraction * 2 ^ q - 2 ^ (q - 1) := by
        rw [two_halves q, pow_succ]
        ring

namespace Canonical

variable (canonical : f.Canonical m q)
include canonical

/-- With an exponent above the least one, the significand is filled. -/
theorem filled_le {p : Int} (least : f.least ≤ p) (below : p < q) : Nat.pow 2 f.fraction ≤ m := by
  by_contra small
  have exponent := canonical.filled (not_le.mp small)
  omega

/-- The next number above is a step away. -/
theorem above_le {y : ℚ} (held : f.Holds y) (above : m * 2 ^ q < y) : m * 2 ^ q + 2 ^ q ≤ y := by
  obtain ⟨n, p, fits, least, rfl⟩ := held
  have step : (0 : ℚ) < 2 ^ q := zpow_pos (by norm_num) q
  rcases le_or_gt q p with larger | smaller
  · obtain ⟨k, steps⟩ := whole_steps n larger
    rw [steps] at above ⊢
    have more : m + 1 ≤ k := by
      have less := lt_of_mul_lt_mul_right above step.le
      exact_mod_cast less
    calc (m : ℚ) * 2 ^ q + 2 ^ q = (m + 1 : Nat) * 2 ^ q := by
          rw [Nat.cast_add, Nat.cast_one]
          ring
      _ ≤ k * 2 ^ q := mul_le_mul_of_nonneg_right (by exact_mod_cast more) step.le
  · have filled : (2 : ℚ) ^ f.fraction ≤ m := by
      exact_mod_cast canonical.filled_le least smaller
    have half : (0 : ℚ) < 2 ^ (q - 1) := zpow_pos (by norm_num) _
    have under := le_of_smaller fits smaller
    nlinarith

/-- The next number below is a step away, or half a step if the significand is the least filled
one. -/
theorem le_below {y : ℚ} (held : f.Holds y) (below : y < m * 2 ^ q) :
    y ≤ m * 2 ^ q - Interval.quartersBelow f m q * 2 ^ (q - 1) := by
  obtain ⟨n, p, fits, least, rfl⟩ := held
  have step : (0 : ℚ) < 2 ^ q := zpow_pos (by norm_num) q
  have half : (0 : ℚ) < 2 ^ (q - 1) := zpow_pos (by norm_num) _
  have halves := two_halves q
  have atMost := Interval.quartersBelow_le f m q
  rcases le_or_gt q p with larger | smaller
  · obtain ⟨k, steps⟩ := whole_steps n larger
    rw [steps] at below ⊢
    have more : k + 1 ≤ m := by
      have less := lt_of_mul_lt_mul_right below step.le
      exact_mod_cast less
    have whole : (k : ℚ) * 2 ^ q + 2 ^ q ≤ m * 2 ^ q := by
      calc (k : ℚ) * 2 ^ q + 2 ^ q = (k + 1 : Nat) * 2 ^ q := by
            rw [Nat.cast_add, Nat.cast_one]
            ring
        _ ≤ m * 2 ^ q := mul_le_mul_of_nonneg_right (by exact_mod_cast more) step.le
    nlinarith
  · have filled := canonical.filled_le least smaller
    have under := le_of_smaller fits smaller
    rcases Nat.eq_or_lt_of_le filled with power | larger
    · have one : Interval.quartersBelow f m q = 1 := if_pos ⟨power.symm, by omega⟩
      have cast : (m : ℚ) = 2 ^ f.fraction := by
        rw [← power]
        exact Nat.cast_pow 2 f.fraction
      rw [one, Nat.cast_one, one_mul, cast]
      exact under
    · have cast : (2 : ℚ) ^ f.fraction + 1 ≤ m := by exact_mod_cast larger
      nlinarith

/-- The number a step above is one of the format. -/
theorem holds_above : f.Holds (m * 2 ^ q + 2 ^ q) := by
  have sum : (m : ℚ) * 2 ^ q + 2 ^ q = (m + 1 : Nat) * 2 ^ q := by
    rw [Nat.cast_add, Nat.cast_one]
    ring
  rcases Nat.eq_or_lt_of_le (Nat.succ_le_of_lt canonical.fits) with last | inside
  · refine ⟨Nat.pow 2 f.fraction, q + 1, Nat.pow_lt_pow_right (by decide) (by omega), ?_, ?_⟩
    · have least := canonical.least
      omega
    · have power : ((m + 1 : Nat) : ℚ) = 2 ^ (f.fraction + 1) := by exact_mod_cast last
      rw [sum, power, zpow_add_one₀ (by norm_num), pow_succ, Nat.pow_eq, Nat.cast_pow]
      norm_num
      ring
  · exact ⟨m + 1, q, inside, canonical.least, sum⟩

/-- So is the next number below. -/
theorem holds_below (positive : m ≠ 0) :
    f.Holds (m * 2 ^ q - Interval.quartersBelow f m q * 2 ^ (q - 1)) := by
  have halves := two_halves q
  by_cases power : m = Nat.pow 2 f.fraction ∧ q > f.least
  · have one : Interval.quartersBelow f m q = 1 := if_pos power
    have cast : (m : ℚ) = 2 ^ f.fraction := by
      rw [power.1]
      exact Nat.cast_pow 2 f.fraction
    have some : 1 ≤ Nat.pow 2 (f.fraction + 1) := Nat.two_pow_pos _
    refine ⟨Nat.pow 2 (f.fraction + 1) - 1, q - 1, by omega, by omega, ?_⟩
    rw [one, cast, halves, Nat.cast_sub some, Nat.pow_eq, Nat.cast_pow, pow_succ]
    norm_num
    ring
  · have two : Interval.quartersBelow f m q = 2 := if_neg power
    have fits := canonical.fits
    refine ⟨m - 1, q, by omega, canonical.least, ?_⟩
    rw [two, halves, Nat.cast_sub (Nat.one_le_iff_ne_zero.mpr positive)]
    norm_num
    ring

end Canonical

/-! ## Rounding -/

section Middle

variable {v x y : ℚ}

/-- Of two numbers the smaller one is as near to all that lies below their middle. -/
theorem near_iff_of_above (above : v < y) : |x - v| ≤ |x - y| ↔ 2 * x ≤ v + y := by
  have squares : (x - y) ^ 2 - (x - v) ^ 2 = (y - v) * (v + y - 2 * x) := by ring
  rw [← sq_le_sq, ← sub_nonneg, squares, mul_nonneg_iff_of_pos_left (sub_pos.mpr above),
    sub_nonneg]

/-- The larger one is as near to all that lies above their middle. -/
theorem near_iff_of_below (below : y < v) : |x - v| ≤ |x - y| ↔ v + y ≤ 2 * x := by
  have squares : (x - y) ^ 2 - (x - v) ^ 2 = (v - y) * (2 * x - (v + y)) := by ring
  rw [← sq_le_sq, ← sub_nonneg, squares, mul_nonneg_iff_of_pos_left (sub_pos.mpr below),
    sub_nonneg]

/-- Both are as near only to the middle. -/
theorem tie_iff (other : y ≠ v) : |x - v| = |x - y| ↔ 2 * x = v + y := by
  have squares : (x - v) ^ 2 - (x - y) ^ 2 = (y - v) * (2 * x - (v + y)) := by ring
  rw [← sq_eq_sq_iff_abs_eq_abs, ← sub_eq_zero, squares, mul_eq_zero,
    or_iff_right (sub_ne_zero.mpr other), sub_eq_zero]

end Middle

/-- The interval goes up to the middle between the number and the next one. -/
theorem right_eq (f : BinaryFormat) (m : Nat) (q : Int) :
    2 * (Interval.of f m q).right = m * 2 ^ q + (m * 2 ^ q + 2 ^ q) := by
  rw [Interval.right_of, ← Interval.four_quarters q]
  ring

/-- It goes down to the middle between the number and the one below. -/
theorem left_eq (f : BinaryFormat) (positive : m ≠ 0) (q : Int) :
    2 * (Interval.of f m q).left
      = m * 2 ^ q + (m * 2 ^ q - Interval.quartersBelow f m q * 2 ^ (q - 1)) := by
  have quarters := two_halves (q - 1)
  rw [show q - 1 - 1 = q - 2 by omega] at quarters
  rw [Interval.left_of f positive, quarters]
  ring

/-- The number below lies below. -/
theorem next_below_lt (f : BinaryFormat) (m : Nat) (q : Int) :
    (m : ℚ) * 2 ^ q - Interval.quartersBelow f m q * 2 ^ (q - 1) < m * 2 ^ q :=
  sub_lt_self _ (mul_pos (zero_lt_one.trans_le (Interval.one_le_quartersBelow f m q))
    (zpow_pos (by norm_num) _))

/-- Between its ends the format holds no nearer number than the middle. -/
theorem nearest_iff (canonical : f.Canonical m q) (positive : m ≠ 0) (x : ℚ) :
    (∀ y, f.Holds y → |x - m * 2 ^ q| ≤ |x - y|) ↔
      (Interval.of f m q).left ≤ x ∧ x ≤ (Interval.of f m q).right := by
  have right := right_eq f m q
  have left := left_eq f positive q
  constructor
  · intro nearest
    have above := (near_iff_of_above (lt_add_of_pos_right _ (zpow_pos (by norm_num) q))).mp
      (nearest _ canonical.holds_above)
    have below := (near_iff_of_below (next_below_lt f m q)).mp
      (nearest _ (canonical.holds_below positive))
    constructor <;> linarith
  · rintro ⟨above, below⟩ y held
    rcases lt_trichotomy y (m * 2 ^ q) with smaller | same | larger
    · have next := canonical.le_below held smaller
      rw [near_iff_of_below smaller]
      linarith
    · rw [same]
    · have next := canonical.above_le held larger
      rw [near_iff_of_above larger]
      linarith

/-- **A number lies in the interval if and only if it is rounded to the number in the middle.**
Only at the ends is there another number that is as near, and they belong to the interval if the
significand is even. -/
theorem contains_iff_roundsTo (canonical : f.Canonical m q) (positive : m ≠ 0) (x : ℚ) :
    (Interval.of f m q).Contains x ↔ f.RoundsTo m q x := by
  have right := right_eq f m q
  have left := left_eq f positive q
  have closed : (Interval.of f m q).closed = decide (m % 2 = 0) := rfl
  constructor
  · intro inside
    refine ⟨(nearest_iff canonical positive x).mpr inside.bounds, fun y held other tie => ?_⟩
    rw [tie_iff other] at tie
    by_contra odd
    have isOpen : ¬(Interval.of f m q).closed = true := by
      rw [closed, decide_eq_true_iff]
      exact odd
    rw [Interval.Contains, if_neg isOpen] at inside
    rcases lt_or_gt_of_ne other with smaller | larger
    · have next := canonical.le_below held smaller
      linarith [inside.1]
    · have next := canonical.above_le held larger
      linarith [inside.2]
  · intro rounds
    have bounds := (nearest_iff canonical positive x).mp rounds.nearest
    rw [Interval.Contains, closed]
    by_cases even : m % 2 = 0
    · rw [decide_eq_true even, if_pos rfl]
      exact bounds
    · rw [decide_eq_false even, if_neg Bool.false_ne_true]
      have notRight : x ≠ (Interval.of f m q).right := by
        rintro rfl
        have other : (m : ℚ) * 2 ^ q + 2 ^ q ≠ m * 2 ^ q :=
          (lt_add_of_pos_right _ (zpow_pos (by norm_num) q)).ne'
        exact even (rounds.even _ canonical.holds_above other ((tie_iff other).mpr right))
      have notLeft : x ≠ (Interval.of f m q).left := by
        rintro rfl
        have other := (next_below_lt f m q).ne
        exact even (rounds.even _ (canonical.holds_below positive) other ((tie_iff other).mpr left))
      exact ⟨lt_of_le_of_ne bounds.1 notLeft.symm, lt_of_le_of_ne bounds.2 notRight⟩

end BinaryFormat

end LogInterface.Number
