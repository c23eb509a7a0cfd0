/-
# Proofs.Number.Digits -- decimals and the numbers they denote

A text of digits with a point in it denotes a number (`decimalValue`), and a decimal is written as
such a text: zeros fill the gap between its digits and the point, on one side or the other.  What
is written denotes the number that the decimal stands for (`decimalValue_positional`), so from two
decimals that are written alike the same number is read.

How many digits a number has in front of the point is found from the lengths of two whole numbers,
and is right up to one digit, which a comparison decides (`magnitude_spec`).
-/
import Mathlib.Data.List.DropRight
import LogInterface.Proofs.Number.Rational
import LogInterface.Proofs.Text.Cut

namespace LogInterface.Number

open LogInterface.Text

set_option autoImplicit false

/-! ## Magnitudes -/

theorem lt_pow_digitCount (n : Nat) : n < 10 ^ digitCount n :=
  (Nat.length_toDigits_le_iff (by decide) Nat.length_toDigits_pos).mp (le_refl _)

theorem pow_digitCount_le {n : Nat} (positive : 0 < n) : 10 ^ (digitCount n - 1) ≤ n := by
  have some : 0 < digitCount n := Nat.length_toDigits_pos
  by_cases single : digitCount n = 1
  · rw [single]
    exact positive
  · have more : ¬(Nat.toDigits 10 n).length ≤ digitCount n - 1 := by
      rw [← digitCount]
      omega
    rw [Nat.length_toDigits_le_iff (by decide) (by omega)] at more
    omega

/-- The numbers of digits enclose a quotient between two powers that are two apart. -/
theorem toRat_enclosed {r : Ratio} (positive : 0 < r.num) (denominator : 0 < r.den) :
    (10 : ℚ) ^ ((digitCount r.num : Int) - digitCount r.den - 1) ≤ r.toRat ∧
      r.toRat < (10 : ℚ) ^ ((digitCount r.num : Int) - digitCount r.den + 1) := by
  have ten : (10 : ℚ) ≠ 0 := by norm_num
  have den : (0 : ℚ) < r.den := by exact_mod_cast denominator
  have upper {n : Nat} : (n : ℚ) < 10 ^ (digitCount n : Int) := by
    rw [zpow_natCast]
    exact_mod_cast lt_pow_digitCount n
  have lower {n : Nat} (positive : 0 < n) : (10 : ℚ) ^ ((digitCount n : Int) - 1) ≤ n := by
    have some : 0 < digitCount n := Nat.length_toDigits_pos
    have whole : ((digitCount n : Int) - 1) = (digitCount n - 1 : Nat) := by omega
    rw [whole, zpow_natCast]
    exact_mod_cast pow_digitCount_le positive
  constructor
  · rw [Ratio.toRat, le_div_iff₀ den]
    calc (10 : ℚ) ^ ((digitCount r.num : Int) - digitCount r.den - 1) * r.den
        ≤ 10 ^ ((digitCount r.num : Int) - digitCount r.den - 1) * 10 ^ (digitCount r.den : Int) :=
          mul_le_mul_of_nonneg_left upper.le (zpow_nonneg (by norm_num) _)
      _ = 10 ^ ((digitCount r.num : Int) - 1) := by
          rw [← zpow_add₀ ten]
          congr 1
          omega
      _ ≤ r.num := lower positive
  · rw [Ratio.toRat, div_lt_iff₀ den]
    calc (r.num : ℚ) < 10 ^ (digitCount r.num : Int) := upper
      _ = 10 ^ ((digitCount r.num : Int) - digitCount r.den + 1)
            * 10 ^ ((digitCount r.den : Int) - 1) := by
          rw [← zpow_add₀ ten]
          congr 1
          omega
      _ ≤ 10 ^ ((digitCount r.num : Int) - digitCount r.den + 1) * r.den :=
          mul_le_mul_of_nonneg_left (lower denominator) (zpow_nonneg (by norm_num) _)

/-- **The magnitude is the least exponent of ten above a number.** -/
theorem magnitude_spec {r : Ratio} (positive : 0 < r.num) (denominator : 0 < r.den) :
    (10 : ℚ) ^ (magnitude r - 1) ≤ r.toRat ∧ r.toRat < (10 : ℚ) ^ magnitude r := by
  obtain ⟨lower, upper⟩ := toRat_enclosed positive denominator
  rw [magnitude]
  split
  · rename_i below
    exact ⟨lower, (Ratio.belowTens_iff denominator _).mp below⟩
  · rename_i above
    rw [Ratio.belowTens_iff denominator, not_lt] at above
    rw [add_sub_cancel_right]
    exact ⟨above, upper⟩

/-- The magnitude of a number does not depend on how it is given. -/
theorem magnitude_congr {r s : Ratio} (positive : 0 < r.num) (denominator : 0 < r.den)
    (other : 0 < s.num) (otherDenominator : 0 < s.den) (same : r.toRat = s.toRat) :
    magnitude r = magnitude s := by
  have below {r s : Ratio} (lower : (10 : ℚ) ^ (magnitude r - 1) ≤ r.toRat)
      (upper : s.toRat < (10 : ℚ) ^ magnitude s) (same : r.toRat = s.toRat) :
      magnitude r ≤ magnitude s := by
    have less : (10 : ℚ) ^ (magnitude r - 1) < 10 ^ magnitude s := by
      rw [same] at lower
      exact lower.trans_lt upper
    have exponents := (zpow_lt_zpow_iff_right₀ (by norm_num : (1 : ℚ) < 10)).mp less
    omega
  obtain ⟨lowerR, upperR⟩ := magnitude_spec positive denominator
  obtain ⟨lowerS, upperS⟩ := magnitude_spec other otherDenominator
  exact le_antisymm (below lowerR upperS same) (below lowerS upperR same.symm)

/-! ## Written numbers -/

/-- The number that digits with a point among them denote. -/
def decimalValue (cs : List Char) : ℚ :=
  Nat.ofDigitChars 10 ((cutAt '.' cs).1 ++ (cutAt '.' cs).2) 0 / 10 ^ (cutAt '.' cs).2.length

/-- Zeros behind digits multiply by a power of ten. -/
theorem ofDigitChars_append_zeros (cs : List Char) (n : Nat) :
    Nat.ofDigitChars 10 (cs ++ zeros n) 0 = Nat.ofDigitChars 10 cs 0 * 10 ^ n := by
  rw [Nat.ofDigitChars_append, zeros, Nat.ofDigitChars_replicate_zero, Nat.mul_comm]

/-- Zeros in front of digits do not matter. -/
theorem ofDigitChars_zeros_append (n : Nat) (cs : List Char) :
    Nat.ofDigitChars 10 (zeros n ++ cs) 0 = Nat.ofDigitChars 10 cs 0 := by
  rw [Nat.ofDigitChars_append, zeros, Nat.ofDigitChars_replicate_zero, Nat.mul_zero]

/-- Places that are filled up with zeros denote the same number. -/
theorem decimalValue_joined {whole : List Char} (free : '.' ∉ whole) (places : List Char)
    (least : Nat) :
    decimalValue (joined whole places least)
      = Nat.ofDigitChars 10 (whole ++ places) 0 / 10 ^ places.length := by
  have ten : (10 : ℚ) ≠ 0 := by norm_num
  rw [joined]
  split
  · rename_i none
    obtain ⟨rfl, -⟩ := List.append_eq_nil_iff.mp (List.isEmpty_iff.mp none)
    rw [decimalValue, cutAt_of_notMem free]
  · rw [decimalValue, cutAt_append free]
    dsimp only
    rw [← List.append_assoc, ofDigitChars_append_zeros, List.length_append, zeros,
      List.length_replicate, pow_add, Nat.cast_mul, Nat.cast_pow]
    exact mul_div_mul_right _ _ (pow_ne_zero _ ten)

theorem notMem_zeros (n : Nat) : '.' ∉ zeros n := fun member =>
  absurd (List.eq_of_mem_replicate member) (by decide)

/-- **What is written of a decimal denotes its number.** -/
theorem decimalValue_positional {d : Decimal} (free : '.' ∉ d.digits) (least : Nat) :
    decimalValue (d.positional least)
      = Nat.ofDigitChars 10 d.digits 0 * (10 : ℚ) ^ (d.point - d.digits.length) := by
  have ten : (10 : ℚ) ≠ 0 := by norm_num
  rw [Decimal.positional]
  split
  · rename_i small
    have length : (zeros d.point.natAbs ++ d.digits).length = d.point.natAbs + d.digits.length := by
      rw [List.length_append, zeros, List.length_replicate]
    have exponent : d.point - d.digits.length = -((d.point.natAbs + d.digits.length : Nat) : Int) := by
      omega
    have digits : ['0'] ++ (zeros d.point.natAbs ++ d.digits)
        = zeros (d.point.natAbs + 1) ++ d.digits := by
      rw [zeros, zeros, List.replicate_succ]
      rfl
    rw [decimalValue_joined (by decide), digits, ofDigitChars_zeros_append, length, exponent,
      zpow_neg, zpow_natCast, div_eq_mul_inv]
  · rename_i large
    dsimp only
    have free' : '.' ∉ d.digits.take d.point.toNat ++ zeros (d.point.toNat - d.digits.length) := by
      rw [List.mem_append, not_or]
      exact ⟨fun member => free (List.mem_of_mem_take member), notMem_zeros _⟩
    rw [decimalValue_joined free', List.length_drop]
    rcases Nat.le_total d.point.toNat d.digits.length with inside | outside
    · have exponent : d.point - d.digits.length
          = -((d.digits.length - d.point.toNat : Nat) : Int) := by
        omega
      have nothing : zeros (d.point.toNat - d.digits.length) = [] := by
        rw [Nat.sub_eq_zero_of_le inside]
        rfl
      rw [nothing, List.append_nil, List.take_append_drop, exponent, zpow_neg, zpow_natCast,
        div_eq_mul_inv]
    · have exponent : d.point - d.digits.length = ((d.point.toNat - d.digits.length : Nat) : Int) := by
        omega
      rw [List.take_of_length_le outside, List.drop_eq_nil_of_le outside, List.append_nil,
        ofDigitChars_append_zeros, exponent, zpow_natCast, Nat.sub_eq_zero_of_le outside, pow_zero,
        div_one, Nat.cast_mul, Nat.cast_pow]
      rfl

/-! ## Digits without zeros at their end -/

theorem withoutZeros_append (cs : List Char) :
    withoutZeros cs ++ zeros (cs.length - (withoutZeros cs).length) = cs := by
  have parts : withoutZeros cs ++ cs.rtakeWhile (· = '0') = cs :=
    List.rdropWhile_append_rtakeWhile
  have all : cs.rtakeWhile (· = '0') = zeros (cs.rtakeWhile (· = '0')).length :=
    List.eq_replicate_of_mem fun c member => by simpa using List.mem_rtakeWhile_imp member
  have length := congrArg List.length parts
  rw [List.length_append] at length
  have count : cs.length - (withoutZeros cs).length = (cs.rtakeWhile (· = '0')).length := by omega
  rw [count, ← all, parts]

/-- **A whole number of units is read back from its digits**, with or without zeros at their
end. -/
theorem decimalValue_units (c : Nat) (unit : Int) (least : Nat) :
    decimalValue (Decimal.positional
        ⟨withoutZeros (Nat.toDigits 10 c), unit + (Nat.toDigits 10 c).length⟩ least)
      = c * (10 : ℚ) ^ unit := by
  have ten : (10 : ℚ) ≠ 0 := by norm_num
  have parts := withoutZeros_append (Nat.toDigits 10 c)
  have shorter : (withoutZeros (Nat.toDigits 10 c)).length ≤ (Nat.toDigits 10 c).length := by
    have length := congrArg List.length parts
    rw [List.length_append] at length
    omega
  have free : '.' ∉ withoutZeros (Nat.toDigits 10 c) := by
    have point : '.' ∉ Nat.toDigits 10 c := notMem_toDigits (by decide) c
    rw [← parts, List.mem_append, not_or] at point
    exact point.1
  have value : (c : ℚ) = Nat.ofDigitChars 10 (withoutZeros (Nat.toDigits 10 c)) 0
      * 10 ^ ((Nat.toDigits 10 c).length - (withoutZeros (Nat.toDigits 10 c)).length) := by
    have read := ofDigitChars_append_zeros (withoutZeros (Nat.toDigits 10 c))
      ((Nat.toDigits 10 c).length - (withoutZeros (Nat.toDigits 10 c)).length)
    rw [parts, Nat.ofDigitChars_ten_toDigits] at read
    exact_mod_cast read
  have exponent : unit + (Nat.toDigits 10 c).length - (withoutZeros (Nat.toDigits 10 c)).length
      = ((Nat.toDigits 10 c).length - (withoutZeros (Nat.toDigits 10 c)).length : Nat) + unit := by
    omega
  rw [decimalValue_positional free]
  dsimp only
  rw [exponent, zpow_add₀ ten, zpow_natCast, ← mul_assoc, ← value]

end LogInterface.Number
