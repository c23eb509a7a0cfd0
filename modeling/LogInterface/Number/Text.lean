/-
# Number.Text -- binary numbers as text

A number is written without an exponent, with the fewest digits that denote it or
with as many places as the precision asks for.  For a reader of debugging output
there is always a point or an exponent, and the exponent is used where the number
is very large or very small.
-/
import LogInterface.Format.Spec
import LogInterface.Number.Decimal

namespace LogInterface.Number

open LogInterface.Format

set_option autoImplicit false

/-- How the digits of a number are laid out. -/
structure FloatStyle where
  /-- The places behind the point that are always written. -/
  places : Nat
  /-- The exponents of ten between which no exponent is written, if there are any. -/
  positional : Option (Int × Int)
  deriving DecidableEq, Repr

/-- For people: no point and no exponent that is not needed. -/
def plainStyle : FloatStyle := ⟨0, none⟩

/-- For a reader of debugging output: from `10 ^ (-4)` and below `10 ^ 16` without an
exponent, and always with a place behind the point. -/
def debugStyle : FloatStyle := ⟨1, some (-4, 16)⟩

/-- Is the number written without an exponent? -/
def FloatStyle.isPositional (style : FloatStyle) (r : Ratio) : Bool :=
  match style.positional with
  | none => true
  | some (low, high) => r.num = 0 || (!r.belowTens low && r.belowTens high)

/-- The digits of the number `m * 2 ^ q`. -/
def finiteChars (f : BinaryFormat) (style : FloatStyle) (precision : Option Nat) (m : Nat)
    (q : Int) : List Char :=
  let r := Ratio.ofPower m 2 q
  match precision with
  | some places => fixed r places
  | none =>
      let d := shortest f m q
      if style.isPositional r then d.positional style.places else d.scientific

/-- A number with its sign; what is no number has none. -/
def floatText (f : BinaryFormat) (style : FloatStyle) (spec : Spec) (bits : Nat) : String :=
  String.ofList
    (match f.decode bits with
      | .nan => spec.numberChars [] "NaN".toList
      | .infinite negative => spec.numberChars (spec.sign negative) "inf".toList
      | .finite negative m q =>
          spec.numberChars (spec.sign negative) (finiteChars f style spec.precision m q))

end LogInterface.Number
