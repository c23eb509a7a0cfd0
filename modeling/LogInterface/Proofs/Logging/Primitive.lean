/-
# Proofs.Logging.Primitive -- primitive arguments and their texts

An argument of a primitive type is logged as one of a few kinds of values: whole numbers in 64 or
128 bits, all other numbers in double precision.  What stands between the caller and the value --
references, boxes, `Some` -- is passed through (`Argument.Nests`).

Wider whole numbers are the same numbers and have the same text (`integerValue_display`).  Numbers
in single precision are the same numbers too, but not always the same text: a text is the fewest
digits that denote the number in its own type, and in double precision fewer digits do
(`tenth_logged`).  When it is the same is decided by the digits (`primitive_logged`).
-/
import LogInterface.Proofs.Number.Widened
import LogInterface.Value.Argument

namespace LogInterface

open LogInterface.Format LogInterface.Number

set_option autoImplicit false

namespace Argument

/-! ## Whole numbers -/

/-- In a type that is no wider than some others a number lies between their ends. -/
theorem toInt_bounds {width : Nat} (v : BitVec width) {bits : Nat} (fits : width ≤ bits) :
    -(2 : Int) ^ (bits - 1) ≤ v.toInt ∧ v.toInt < 2 ^ (bits - 1) := by
  have wider : (2 : Int) ^ (width - 1) ≤ 2 ^ (bits - 1) :=
    pow_le_pow_right₀ (by decide) (by omega)
  have least : -(2 : Int) ^ (width - 1) ≤ v.toInt := BitVec.le_toInt v
  have most : v.toInt < (2 : Int) ^ (width - 1) := BitVec.toInt_lt
  constructor <;> omega

theorem toNat_lt {width : Nat} (v : BitVec width) {bits : Nat} (fits : width ≤ bits) :
    v.toNat < 2 ^ bits :=
  v.isLt.trans_le (Nat.pow_le_pow_right (by decide) fits)

/-- **A whole number keeps its text** in the type that it is logged in. -/
theorem integerValue_display (spec : Spec) {t : IntegerType} (fits : t.width ≤ 128)
    (v : BitVec t.width) : (integerValue t v).display spec = spec.integer (t.toInt v) := by
  rw [integerValue, IntegerType.toInt]
  by_cases small : t.width ≤ 64
  · cases t.signed with
    | true =>
        obtain ⟨least, most⟩ := toInt_bounds v small
        have same : (Int64.ofInt v.toInt).toInt = v.toInt := Int64.toInt_ofInt_of_le least most
        simp only [small, decide_true, if_true, FieldValue.display, same]
    | false =>
        have same : (UInt64.ofNat v.toNat).toNat = v.toNat :=
          UInt64.toNat_ofNat_of_lt' (toNat_lt v small)
        simp only [small, decide_true, Bool.false_eq_true, if_false, FieldValue.display, same]
  · cases t.signed with
    | true =>
        obtain ⟨least, most⟩ := toInt_bounds v fits
        have same : (BitVec.ofInt 128 v.toInt).toInt = v.toInt :=
          BitVec.toInt_ofInt_eq_self (by decide) least most
        simp only [small, decide_false, if_true, FieldValue.display, same]
    | false =>
        have same : (BitVec.ofNat 128 v.toNat).toNat = v.toNat := by
          rw [BitVec.toNat_ofNat, Nat.mod_eq_of_lt (toNat_lt v fits)]
        simp only [small, decide_false, Bool.false_eq_true, if_false, FieldValue.display, same]

/-! ## Primitive arguments -/

/-- A value of a primitive type: a text, a whole number of up to 128 bits with a sign or without
one, a number in single or double precision, a truth value or a character. -/
inductive IsPrimitive : Argument → Prop where
  | text (s : String) : IsPrimitive (.text s)
  | integer (t : IntegerType) (v : BitVec t.width) (fits : t.width ≤ 128) :
      IsPrimitive (.integer t v)
  | float32 (bits : UInt32) : IsPrimitive (.float32 bits)
  | float64 (bits : UInt64) : IsPrimitive (.float64 bits)
  | bool (b : Bool) : IsPrimitive (.bool b)
  | char (c : Char) : IsPrimitive (.char c)

/-- The second argument is the first one behind any number of references, boxes and `Some`. -/
inductive Nests (p : Argument) : Argument → Prop where
  | here : Nests p p
  | present {a : Argument} : Nests p a → Nests p (.present a)
  | behind (pointer : Pointer) {a : Argument} : Nests p a → Nests p (.behind pointer a)

/-- Does the argument have the text of its value?  Only a number in single precision may have
another one, if its digits do not denote it in double precision. -/
def KeepsText : Argument → Prop
  | .float32 bits => KeepsDigits bits.toNat
  | _ => True

variable {p a : Argument}

/-- What stands around an argument changes neither its value nor its text. -/
theorem Nests.passes (nested : p.Nests a) :
    a.value = p.value ∧ ∀ spec, a.display? spec = p.display? spec := by
  induction nested with
  | here => exact ⟨rfl, fun _ => rfl⟩
  | present _ ih => exact ih
  | behind pointer _ ih => exact ih

/-- A number in single precision is logged with the text of its bits after widening. -/
theorem float32_display (spec : Spec) (bits : UInt32) :
    (value (.float32 bits)).display spec
      = floatText binary64 plainStyle spec (widen bits.toNat) := by
  have bounded : (UInt64.ofNat (widen bits.toNat)).toNat = widen bits.toNat % Nat.pow 2 64 :=
    UInt64.toNat_ofNat'
  rw [value, FieldValue.display, bounded, floatText, decode_mod, ← floatText]

/-- A primitive argument has a text, which is the text of its value if it keeps it, or if places
are asked for. -/
theorem display_of_keeps (primitive : p.IsPrimitive) {spec : Spec}
    (keeps : p.KeepsText ∨ spec.precision.isSome) :
    p.display? spec = some (p.value.display spec) := by
  cases primitive with
  | text s => rfl
  | integer t v fits => exact congrArg some (integerValue_display spec fits v).symm
  | float32 bits =>
      rw [float32_display, floatText_widen keeps]
      rfl
  | float64 bits => rfl
  | bool b => rfl
  | char c => rfl

/-- Without places, a text that is the same is one that is kept. -/
theorem keeps_of_display (primitive : p.IsPrimitive)
    (same : p.display? .plain = some p.value.text) : p.KeepsText := by
  cases primitive with
  | float32 bits =>
      have texts : floatText binary32 plainStyle .plain bits.toNat
          = floatText binary64 plainStyle .plain (widen bits.toNat) := by
        rw [FieldValue.text, float32_display] at same
        exact Option.some.inj same
      exact (floatText_widen_iff bits.toNat).mp texts.symm
  | text | integer | float64 | bool | char => trivial

/-- **A primitive argument is logged with its own text**, whatever it stands behind and however it
is asked to be written, with one exception: a number in single precision is logged as the same
number in double precision.  Where no places are asked for, its text is its own if and only if the
digits of the text denote the number in double precision too. -/
theorem primitive_logged (primitive : p.IsPrimitive) (nested : p.Nests a) :
    (a.display? .plain = some a.value.text ↔ p.KeepsText) ∧
      ∀ spec, p.KeepsText ∨ spec.precision.isSome →
        a.display? spec = some (a.value.display spec) := by
  obtain ⟨value, display⟩ := nested.passes
  rw [value]
  refine ⟨?_, fun spec keeps => ?_⟩
  · rw [display]
    exact ⟨keeps_of_display primitive, fun keeps => display_of_keeps primitive (.inl keeps)⟩
  · rw [display]
    exact display_of_keeps primitive keeps

/-- The number 2 in single precision, behind `Some` and a reference, keeps its text. -/
theorem primitive_logged_two :
    (float32 0x40000000).KeepsText ∧
      ∀ spec, (present (.behind .ref (.float32 0x40000000))).display? spec
        = some ((present (.behind .ref (.float32 0x40000000))).value.display spec) := by
  have logged := primitive_logged (.float32 0x40000000) (.present (.behind .ref .here))
  have keeps : (float32 0x40000000).KeepsText := logged.1.mp (by decide +kernel)
  exact ⟨keeps, fun spec => logged.2 spec (.inl keeps)⟩

/-- The number nearest to a tenth in single precision is `0.1` there, and has more digits in double
precision. -/
theorem tenth_logged :
    (float32 0x3dcccccd).display? .plain = some "0.1" ∧
      (float32 0x3dcccccd).value.text = "0.10000000149011612" ∧
      (float32 0x3dcccccd).display? .plain ≠ some (float32 0x3dcccccd).value.text := by
  decide +kernel

end Argument

end LogInterface
