/-
# Proofs.Number.Widening -- a larger format holds the same number

The bits of a number are its sign, a field for the exponent and a fraction, and each of the three
can be read back (`decode_fields`).  A significand that is doubled until it fills its bits denotes
the same number with a smaller exponent, and this is what `encode` writes
(`decode_encode_finite`).

Every number in single precision has room for that in double precision.  So widening keeps what is
no number as it is, and every other number exactly (`decode_widen`).
-/
import Mathlib.Data.Nat.Log
import LogInterface.Proofs.Number.Rational

namespace LogInterface.Number

set_option autoImplicit false

namespace BinaryFormat

variable {f : BinaryFormat}

/-! ## Fields -/

/-- The bits of a sign, a field and a fraction. -/
def ofFields (f : BinaryFormat) (negative : Bool) (field fraction : Nat) : Nat :=
  f.signBit negative + field * Nat.pow 2 f.fraction + fraction

/-- What a sign, a field and a fraction denote. -/
def denoted (f : BinaryFormat) (negative : Bool) (field fraction : Nat) : Binary :=
  if field = f.special then
    if fraction = 0 then .infinite negative else .nan
  else if field = 0 then .finite negative fraction f.least
  else .finite negative (Nat.pow 2 f.fraction + fraction) (f.least + field - 1)

theorem special_lt (f : BinaryFormat) : f.special < Nat.pow 2 f.exponent :=
  Nat.sub_lt (Nat.pow_pos (by decide)) Nat.one_pos

/-- **Each part of the bits is read back.** -/
theorem decode_fields (f : BinaryFormat) (negative : Bool) {field fraction : Nat}
    (inField : field < Nat.pow 2 f.exponent) (inFraction : fraction < Nat.pow 2 f.fraction) :
    f.decode (f.ofFields negative field fraction) = f.denoted negative field fraction := by
  have one : 0 < Nat.pow 2 f.fraction := Nat.two_pow_pos _
  have other : 0 < Nat.pow 2 f.exponent := Nat.two_pow_pos _
  have split : Nat.pow 2 (f.fraction + f.exponent) = Nat.pow 2 f.fraction * Nat.pow 2 f.exponent :=
    Nat.pow_add _ _ _
  have sign : f.signBit negative
      = Nat.pow 2 f.fraction * (Nat.pow 2 f.exponent * negative.toNat) := by
    rw [signBit, ← Nat.mul_assoc, ← split]
    cases negative <;> simp
  have bits : f.ofFields negative field fraction
      = Nat.pow 2 f.fraction * (Nat.pow 2 f.exponent * negative.toNat + field) + fraction := by
    rw [ofFields, sign, Nat.mul_add, Nat.mul_comm field]
  have low : f.ofFields negative field fraction % Nat.pow 2 f.fraction = fraction := by
    rw [bits, Nat.mul_add_mod, Nat.mod_eq_of_lt inFraction]
  have high : f.ofFields negative field fraction / Nat.pow 2 f.fraction
      = Nat.pow 2 f.exponent * negative.toNat + field := by
    rw [bits, Nat.mul_add_div one, Nat.div_eq_of_lt inFraction, Nat.add_zero]
  have middle : f.ofFields negative field fraction / Nat.pow 2 f.fraction % Nat.pow 2 f.exponent
      = field := by
    rw [high, Nat.mul_add_mod, Nat.mod_eq_of_lt inField]
  have top : f.ofFields negative field fraction / Nat.pow 2 (f.fraction + f.exponent)
      = negative.toNat := by
    rw [split, ← Nat.div_div_eq_div_mul, high, Nat.mul_add_div other, Nat.div_eq_of_lt inField,
      Nat.add_zero]
  have isNegative : decide (negative.toNat % 2 = 1) = negative := by
    cases negative <;> rfl
  rw [decode, low, middle, top, isNegative, denoted]

/-- Nothing but the three parts is read. -/
theorem decode_congr {a b : Nat} (low : a % Nat.pow 2 f.fraction = b % Nat.pow 2 f.fraction)
    (middle : a / Nat.pow 2 f.fraction % Nat.pow 2 f.exponent
      = b / Nat.pow 2 f.fraction % Nat.pow 2 f.exponent)
    (top : a / Nat.pow 2 (f.fraction + f.exponent) % 2
      = b / Nat.pow 2 (f.fraction + f.exponent) % 2) : f.decode a = f.decode b := by
  rw [decode, low, middle, top, ← decode]

/-! ## Finite numbers -/

/-- What a finite number is made of. -/
theorem of_decode_finite {bits : Nat} {negative : Bool} {m : Nat} {q : Int}
    (decoded : f.decode bits = .finite negative m q) :
    m < Nat.pow 2 (f.fraction + 1) ∧ f.least ≤ q ∧ q < f.least + f.special ∧
      (m < Nat.pow 2 f.fraction → q = f.least) := by
  have inFraction : bits % Nat.pow 2 f.fraction < Nat.pow 2 f.fraction :=
    Nat.mod_lt _ (Nat.pow_pos (by decide))
  have inField : bits / Nat.pow 2 f.fraction % Nat.pow 2 f.exponent < Nat.pow 2 f.exponent :=
    Nat.mod_lt _ (Nat.pow_pos (by decide))
  have doubled : Nat.pow 2 (f.fraction + 1) = Nat.pow 2 f.fraction + Nat.pow 2 f.fraction := by
    rw [Nat.pow_eq, Nat.pow_eq, Nat.pow_succ]
    omega
  rw [decode] at decoded
  split at decoded
  · split at decoded <;> cases decoded
  · rename_i ordinary
    have below : bits / Nat.pow 2 f.fraction % Nat.pow 2 f.exponent < f.special := by
      rw [special] at ordinary ⊢
      omega
    split at decoded
    · cases decoded
      exact ⟨by omega, le_refl _, by omega, fun _ => rfl⟩
    · rename_i normal
      cases decoded
      exact ⟨by omega, by omega, by omega, fun small => absurd small (by omega)⟩

/-- Doubling fills the bits of a significand, if the exponent allows it, and not more. -/
theorem shifted_lt {m : Nat} {q : Int} (positive : m ≠ 0)
    (fits : m < Nat.pow 2 (f.fraction + 1)) :
    m * Nat.pow 2 (f.shiftOf m q) < Nat.pow 2 (f.fraction + 1) := by
  have log : Nat.log2 m ≤ f.fraction := by
    rw [← Nat.lt_succ_iff]
    exact (Nat.log2_lt positive).mpr fits
  have shift : f.shiftOf m q ≤ f.fraction - Nat.log2 m := Nat.min_le_left _ _
  calc m * Nat.pow 2 (f.shiftOf m q)
      < Nat.pow 2 (Nat.log2 m + 1) * Nat.pow 2 (f.shiftOf m q) :=
        Nat.mul_lt_mul_of_pos_right Nat.lt_log2_self (Nat.pow_pos (by decide))
    _ = Nat.pow 2 (Nat.log2 m + 1 + f.shiftOf m q) := (Nat.pow_add _ _ _).symm
    _ ≤ Nat.pow 2 (f.fraction + 1) := Nat.pow_le_pow_right (by decide) (by omega)

/-- A significand whose bits are not filled cannot be doubled further. -/
theorem shiftOf_of_small {m : Nat} {q : Int} (positive : m ≠ 0)
    (small : m * Nat.pow 2 (f.shiftOf m q) < Nat.pow 2 f.fraction) :
    f.shiftOf m q = (q - f.least).toNat := by
  rcases Nat.le_total (f.fraction - Nat.log2 m) (q - f.least).toNat with filled | ended
  · have shift : f.shiftOf m q = f.fraction - Nat.log2 m := Nat.min_eq_left filled
    have full : Nat.pow 2 f.fraction ≤ m * Nat.pow 2 (f.shiftOf m q) := by
      calc Nat.pow 2 f.fraction ≤ Nat.pow 2 (Nat.log2 m + f.shiftOf m q) :=
            Nat.pow_le_pow_right (by decide) (by omega)
        _ = Nat.pow 2 (Nat.log2 m) * Nat.pow 2 (f.shiftOf m q) := Nat.pow_add _ _ _
        _ ≤ m * Nat.pow 2 (f.shiftOf m q) :=
            Nat.mul_le_mul_right _ (Nat.log2_self_le positive)
    omega
  · exact Nat.min_eq_right ended

/-- **A finite number is read back with its significand doubled.** -/
theorem decode_encode_finite {negative : Bool} {m : Nat} {q : Int} (positive : m ≠ 0)
    (fits : m < Nat.pow 2 (f.fraction + 1)) (least : f.least ≤ q)
    (room : q + 1 < f.least + f.special) :
    f.decode (f.encode (.finite negative m q))
      = .finite negative (m * Nat.pow 2 (f.shiftOf m q)) (q - f.shiftOf m q) := by
  have doubled : Nat.pow 2 (f.fraction + 1) = Nat.pow 2 f.fraction + Nat.pow 2 f.fraction := by
    rw [Nat.pow_eq, Nat.pow_eq, Nat.pow_succ]
    omega
  have bounded := shifted_lt (q := q) positive fits
  have within : f.shiftOf m q ≤ (q - f.least).toNat := Nat.min_le_right _ _
  have special := f.special_lt
  rw [encode, if_neg positive]
  dsimp only
  by_cases small : m * Nat.pow 2 (f.shiftOf m q) < Nat.pow 2 f.fraction
  · have ended := shiftOf_of_small positive small
    have exponent : q - f.shiftOf m q = f.least := by omega
    have fields : f.signBit negative + m * Nat.pow 2 (f.shiftOf m q)
        = f.ofFields negative 0 (m * Nat.pow 2 (f.shiftOf m q)) := by
      rw [ofFields, Nat.zero_mul, Nat.add_zero]
    rw [if_pos small, fields, decode_fields f negative (Nat.pow_pos (by decide)) small, denoted,
      if_neg (by omega), if_pos rfl, exponent]
  · have field : (q - f.shiftOf m q - f.least + 1).toNat < f.special := by omega
    have fraction : m * Nat.pow 2 (f.shiftOf m q) - Nat.pow 2 f.fraction < Nat.pow 2 f.fraction := by
      omega
    have whole : Nat.pow 2 f.fraction + (m * Nat.pow 2 (f.shiftOf m q) - Nat.pow 2 f.fraction)
        = m * Nat.pow 2 (f.shiftOf m q) := by
      omega
    have exponent : f.least + ((q - f.shiftOf m q - f.least + 1).toNat : Int) - 1
        = q - f.shiftOf m q := by
      omega
    rw [if_neg small, ← ofFields, decode_fields f negative (field.trans special) fraction, denoted,
      if_neg (by omega), if_neg (by omega), whole, exponent]

end BinaryFormat

/-! ## Widening -/

/-- The number in double precision, with its significand doubled as far as it goes. -/
def Binary.filled : Binary → Binary
  | .finite negative m q =>
      if m = 0 then .finite negative 0 binary64.least
      else .finite negative (m * Nat.pow 2 (binary64.shiftOf m q)) (q - binary64.shiftOf m q)
  | x => x

/-- Only the bits of the format are read. -/
theorem decode_mod (bits : Nat) :
    binary64.decode (bits % Nat.pow 2 64) = binary64.decode bits := by
  have low : bits % Nat.pow 2 64 % Nat.pow 2 52 = bits % Nat.pow 2 52 := by
    simp only [Nat.pow_eq]
    omega
  have middle : bits % Nat.pow 2 64 / Nat.pow 2 52 % Nat.pow 2 11
      = bits / Nat.pow 2 52 % Nat.pow 2 11 := by
    simp only [Nat.pow_eq]
    omega
  have top : bits % Nat.pow 2 64 / Nat.pow 2 (52 + 11) % 2
      = bits / Nat.pow 2 (52 + 11) % 2 := by
    simp only [Nat.pow_eq]
    omega
  exact BinaryFormat.decode_congr low middle top

section Single

variable {bits : Nat} {negative : Bool} {m : Nat} {q : Int}

theorem fits_of_decode (decoded : binary32.decode bits = .finite negative m q) :
    m < Nat.pow 2 (binary64.fraction + 1) :=
  (BinaryFormat.of_decode_finite decoded).1.trans (by decide)

/-- In double precision there is room for the exponent. -/
theorem exponent_of_decode (decoded : binary32.decode bits = .finite negative m q) :
    binary64.least + 2 ≤ q ∧ q + 1 < binary64.least + binary64.special := by
  obtain ⟨-, least, most, -⟩ := BinaryFormat.of_decode_finite decoded
  have least32 : binary32.least = -149 := by decide
  have special32 : binary32.special = 255 := by decide
  have least64 : binary64.least = -1074 := by decide
  have special64 : binary64.special = 2047 := by decide
  omega

/-- In double precision there is room for the significand, more than once. -/
theorem two_le_shiftOf (decoded : binary32.decode bits = .finite negative m q) :
    2 ≤ binary64.shiftOf m q := by
  have fraction : binary64.fraction = 52 := rfl
  have log : Nat.log2 m ≤ 23 := by
    by_cases zero : m = 0
    · subst zero
      decide
    · have fits := (BinaryFormat.of_decode_finite decoded).1
      exact Nat.lt_succ_iff.mp ((Nat.log2_lt zero).mpr fits)
  have least := (exponent_of_decode decoded).1
  apply Nat.le_min.mpr
  omega

end Single

/-- **Widening keeps the number.** -/
theorem decode_widen (bits : Nat) :
    binary64.decode (widen bits) = (binary32.decode bits).filled := by
  rw [widen]
  cases decoded : binary32.decode bits with
  | nan =>
      have fields : binary64.encode .nan
          = binary64.ofFields false binary64.special (Nat.pow 2 51) := by decide
      rw [fields, BinaryFormat.decode_fields _ _ (BinaryFormat.special_lt _) (by decide)]
      rfl
  | infinite negative =>
      have fields : binary64.encode (.infinite negative)
          = binary64.ofFields negative binary64.special 0 := by rfl
      rw [fields, BinaryFormat.decode_fields _ _ (BinaryFormat.special_lt _) (by decide)]
      rfl
  | finite negative m q =>
      by_cases zero : m = 0
      · subst zero
        have fields : binary64.encode (.finite negative 0 q)
            = binary64.ofFields negative 0 0 := by rfl
        rw [fields, BinaryFormat.decode_fields _ _ (by decide) (by decide)]
        rfl
      · obtain ⟨least, most⟩ := exponent_of_decode decoded
        rw [BinaryFormat.decode_encode_finite zero (fits_of_decode decoded) (by omega) most,
          Binary.filled, if_neg zero]

end LogInterface.Number
