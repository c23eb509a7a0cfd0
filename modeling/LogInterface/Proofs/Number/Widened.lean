/-
# Proofs.Number.Widened -- the text of a number in a larger format

A number in single precision that is widened stays the same number, but its text need not stay:
the fewest digits that denote it are searched among the reals that round to it, and fewer of them
do so in double precision.  `0.1` denotes a number in single precision, and another one in double
precision.

With as many places as a precision asks for, the number alone decides (`fixed_congr`), so the text
is the same.  Without a precision it is the same if and only if the digits of the text, read as a
decimal, round to the number in double precision as well (`floatText_widen_iff`).
-/
import LogInterface.Number.Text
import LogInterface.Proofs.Number.Nearest
import LogInterface.Proofs.Number.Widening

namespace LogInterface.Number

open LogInterface.Format

set_option autoImplicit false

/-! ## Fixed places -/

/-- **A number with fixed places is written alike however it is given.** -/
theorem fixed_congr {r s : Ratio} (first : 0 < r.den) (second : 0 < s.den)
    (same : r.toRat = s.toRat) (places : Nat) : fixed r places = fixed s places := by
  have rounded : (r.overTens (-places)).roundEven = (s.overTens (-places)).roundEven := by
    rw [Ratio.roundEven_eq (Ratio.overTens_den_pos first _),
      Ratio.roundEven_eq (Ratio.overTens_den_pos second _), Ratio.toRat_overTens,
      Ratio.toRat_overTens, same]
  rw [fixed, fixed, rounded]

/-! ## Fewest digits -/

section Fewest

variable {f : BinaryFormat} {m : Nat} {q : Int}

/-- What the search for the fewest digits finds: a whole number of units. -/
def units (f : BinaryFormat) (m : Nat) (q : Int) : Nat × Int :=
  (Interval.of f m q).search mostDigits (magnitude (Ratio.ofPower m 2 q) - 1)

theorem shortest_zero (f : BinaryFormat) (q : Int) : shortest f 0 q = ⟨['0'], 1⟩ := if_pos rfl

theorem shortest_eq (positive : m ≠ 0) : shortest f m q =
    ⟨withoutZeros (Nat.toDigits 10 (units f m q).1),
      (units f m q).2 + (Nat.toDigits 10 (units f m q).1).length⟩ := by
  rw [shortest, if_neg positive]
  rfl

/-- The fewest digits denote what the search found. -/
theorem decimalValue_shortest (positive : m ≠ 0) (least : Nat) :
    decimalValue ((shortest f m q).positional least)
      = (units f m q).1 * (10 : ℚ) ^ (units f m q).2 := by
  rw [shortest_eq positive]
  exact decimalValue_units _ _ least

theorem toRat_power (m : Nat) (q : Int) : (Ratio.ofPower m 2 q).toRat = m * 2 ^ q :=
  Ratio.toRat_ofPower m 2 q

theorem num_pos (positive : m ≠ 0) (q : Int) : 0 < (Ratio.ofPower m 2 q).num := by
  rw [Ratio.ofPower]
  split
  · exact Nat.pos_of_ne_zero positive
  · exact Nat.mul_pos (Nat.pos_of_ne_zero positive) (Nat.two_pow_pos _)

theorem den_pos (m : Nat) (q : Int) : 0 < (Ratio.ofPower m 2 q).den :=
  Ratio.ofPower_den_pos (by decide) m q

variable {k : Nat}

/-- **The fewest digits stay the same in double precision if and only if what they denote rounds
to the number there.** -/
theorem shortest_doubled_iff (positive : m ≠ 0) (more : 2 ≤ k)
    (fits : m * Nat.pow 2 k < Nat.pow 2 53) :
    (shortest binary64 (m * Nat.pow 2 k) (q - k)).positional 0 = (shortest f m q).positional 0 ↔
      (Interval.of binary64 (m * Nat.pow 2 k) (q - k)).Contains
        (decimalValue ((shortest f m q).positional 0)) := by
  have filled : m * Nat.pow 2 k ≠ 0 := Nat.mul_ne_zero positive (Nat.two_pow_pos k).ne'
  have magnitudes : magnitude (Ratio.ofPower (m * Nat.pow 2 k) 2 (q - k))
      = magnitude (Ratio.ofPower m 2 q) := by
    apply magnitude_congr (num_pos filled _) (den_pos _ _) (num_pos positive _) (den_pos _ _)
    rw [toRat_power, toRat_power, Ratio.doubled_eq]
  constructor
  · intro same
    rw [← same, decimalValue_shortest filled]
    apply Interval.contains_search filled fits
    rw [magnitudes, Ratio.doubled_eq, ← toRat_power]
    exact (magnitude_spec (num_pos positive q) (den_pos m q)).1
  · intro inside
    rw [decimalValue_shortest positive] at inside
    have found : units binary64 (m * Nat.pow 2 k) (q - k) = units f m q := by
      rw [units, magnitudes]
      refine Interval.search_narrow (fun x => Interval.narrow_of f binary64 positive more x) ?_
        (Interval.contains_center binary64 filled _) _ _ inside
      rw [Interval.center_of, Interval.center_of, Ratio.doubled_eq]
    rw [shortest_eq filled, shortest_eq positive, found]

end Fewest

/-! ## Texts -/

/-- Do the digits of a number in single precision, read as a decimal, round to the same number in
double precision?  Zero has no other digits, and what is no number has none. -/
def KeepsDigits (bits : Nat) : Prop :=
  match binary32.decode bits, binary64.decode (widen bits) with
  | .finite _ m q, .finite _ wide p =>
      m = 0 ∨ binary64.RoundsTo wide p (decimalValue (finiteChars binary32 plainStyle none m q))
  | _, _ => True

theorem finiteChars_plain (f : BinaryFormat) (m : Nat) (q : Int) :
    finiteChars f plainStyle none m q = (shortest f m q).positional 0 := rfl

theorem canonical_of_decode {f : BinaryFormat} {bits : Nat} {negative : Bool} {m : Nat} {q : Int}
    (decoded : f.decode bits = .finite negative m q) : f.Canonical m q :=
  have ⟨fits, least, _, filled⟩ := BinaryFormat.of_decode_finite decoded
  ⟨fits, least, filled⟩

section Widen

variable {bits : Nat} {negative : Bool} {m : Nat} {q : Int}

/-- What a number in single precision is in double precision. -/
theorem decode_widen_finite (decoded : binary32.decode bits = .finite negative m q)
    (positive : m ≠ 0) :
    ∃ k, 2 ≤ k ∧ m * Nat.pow 2 k < Nat.pow 2 53 ∧
      binary64.decode (widen bits) = .finite negative (m * Nat.pow 2 k) (q - k) := by
  refine ⟨binary64.shiftOf m q, two_le_shiftOf decoded, ?_, ?_⟩
  · exact BinaryFormat.shifted_lt positive (fits_of_decode decoded)
  · rw [decode_widen, decoded, Binary.filled, if_neg positive]

theorem decode_widen_zero (decoded : binary32.decode bits = .finite negative 0 q) :
    binary64.decode (widen bits) = .finite negative 0 binary64.least := by
  rw [decode_widen, decoded, Binary.filled, if_pos rfl]

/-- The digits stay the same if and only if they are rounded to the number in double precision. -/
theorem shortest_widen_iff (decoded : binary32.decode bits = .finite negative m q)
    (positive : m ≠ 0) {wide : Nat} {p : Int}
    (widened : binary64.decode (widen bits) = .finite negative wide p) :
    (shortest binary64 wide p).positional 0 = (shortest binary32 m q).positional 0 ↔
      binary64.RoundsTo wide p (decimalValue ((shortest binary32 m q).positional 0)) := by
  obtain ⟨k, more, fits, doubled⟩ := decode_widen_finite decoded positive
  cases doubled.symm.trans widened
  have filled : m * Nat.pow 2 k ≠ 0 := Nat.mul_ne_zero positive (Nat.two_pow_pos k).ne'
  rw [shortest_doubled_iff positive more fits,
    BinaryFormat.contains_iff_roundsTo (canonical_of_decode widened) filled]

/-- A number is written with the same digits after widening if the digits are kept, or if places
are asked for. -/
theorem finiteChars_widen {wide : Nat} {p : Int}
    (decoded : binary32.decode bits = .finite negative m q)
    (widened : binary64.decode (widen bits) = .finite negative wide p) (precision : Option Nat)
    (keeps : KeepsDigits bits ∨ precision.isSome) :
    finiteChars binary64 plainStyle precision wide p
      = finiteChars binary32 plainStyle precision m q := by
  by_cases zero : m = 0
  · subst zero
    cases (decode_widen_zero decoded).symm.trans widened
    cases precision with
    | none =>
        rw [finiteChars_plain, finiteChars_plain, shortest_zero, shortest_zero]
    | some places =>
        apply fixed_congr (den_pos _ _) (den_pos _ _)
        rw [toRat_power, toRat_power, Nat.cast_zero, zero_mul, zero_mul]
  · cases precision with
    | some places =>
        obtain ⟨k, -, -, doubled⟩ := decode_widen_finite decoded zero
        cases doubled.symm.trans widened
        apply fixed_congr (den_pos _ _) (den_pos _ _)
        rw [toRat_power, toRat_power, Ratio.doubled_eq]
    | none =>
        obtain kept | asked := keeps
        · rw [KeepsDigits, decoded, widened] at kept
          exact (shortest_widen_iff decoded zero widened).mpr (kept.resolve_left zero)
        · cases asked

/-- **The text is the same after widening** if the digits are kept, or if places are asked
for. -/
theorem floatText_widen {spec : Spec} (keeps : KeepsDigits bits ∨ spec.precision.isSome) :
    floatText binary64 plainStyle spec (widen bits) = floatText binary32 plainStyle spec bits := by
  have widened := decode_widen bits
  rw [floatText, floatText]
  cases decoded : binary32.decode bits with
  | nan =>
      rw [widened, decoded]
      rfl
  | infinite negative =>
      rw [widened, decoded]
      rfl
  | finite negative m q =>
      obtain ⟨wide, p, widened⟩ : ∃ wide p,
          binary64.decode (widen bits) = .finite negative wide p := by
        by_cases zero : m = 0
        · subst zero
          exact ⟨_, _, decode_widen_zero decoded⟩
        · obtain ⟨k, -, -, doubled⟩ := decode_widen_finite decoded zero
          exact ⟨_, _, doubled⟩
      rw [widened]
      dsimp only
      rw [finiteChars_widen decoded widened spec.precision keeps]

/-- **Without places the text is the same only if the digits are kept.** -/
theorem floatText_widen_iff (bits : Nat) :
    floatText binary64 plainStyle .plain (widen bits) = floatText binary32 plainStyle .plain bits
      ↔ KeepsDigits bits := by
  refine ⟨fun same => ?_, fun keeps => floatText_widen (.inl keeps)⟩
  rw [floatText, floatText, String.ofList_inj] at same
  rw [KeepsDigits]
  cases decoded : binary32.decode bits with
  | nan => trivial
  | infinite negative => trivial
  | finite negative m q =>
      by_cases zero : m = 0
      · subst zero
        rw [decode_widen_zero decoded]
        exact .inl rfl
      · obtain ⟨k, -, -, widened⟩ := decode_widen_finite decoded zero
        rw [decoded, widened] at same
        rw [widened]
        have digits : finiteChars binary64 plainStyle none (m * Nat.pow 2 k) (q - k)
            = finiteChars binary32 plainStyle none m q := List.append_cancel_left same
        exact .inr ((shortest_widen_iff decoded zero widened).mp digits)

end Widen

end LogInterface.Number
