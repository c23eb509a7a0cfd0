/-
# Number.Binary -- binary floating-point numbers

A `BinaryFormat` says how many bits hold the fraction and the exponent; `decode`
reads the bits of a number as what it denotes, and `encode` writes it again.
`widen` takes the bits of a small format to a larger one, which holds the same
number.
-/
namespace LogInterface.Number

set_option autoImplicit false

/-- A binary floating-point format. -/
structure BinaryFormat where
  /-- The bits of the fraction. -/
  fraction : Nat
  /-- The bits of the exponent. -/
  exponent : Nat
  deriving DecidableEq, Repr

def binary32 : BinaryFormat := ⟨23, 8⟩

def binary64 : BinaryFormat := ⟨52, 11⟩

/-- What the bits of a number denote. -/
inductive Binary where
  | nan
  | infinite (negative : Bool)
  /-- The number `m * 2 ^ q`. -/
  | finite (negative : Bool) (m : Nat) (q : Int)
  deriving DecidableEq, Repr

namespace BinaryFormat

/-- The exponent of the smallest step between two numbers. -/
def least (f : BinaryFormat) : Int := 2 - (Nat.pow 2 (f.exponent - 1) : Int) - f.fraction

/-- The exponent field of what is no finite number. -/
def special (f : BinaryFormat) : Nat := Nat.pow 2 f.exponent - 1

def decode (f : BinaryFormat) (bits : Nat) : Binary :=
  let fraction := bits % Nat.pow 2 f.fraction
  let field := bits / Nat.pow 2 f.fraction % Nat.pow 2 f.exponent
  let negative := bits / Nat.pow 2 (f.fraction + f.exponent) % 2 = 1
  if field = f.special then
    if fraction = 0 then .infinite negative else .nan
  else if field = 0 then .finite negative fraction f.least
  else .finite negative (Nat.pow 2 f.fraction + fraction) (f.least + field - 1)

def signBit (f : BinaryFormat) (negative : Bool) : Nat :=
  if negative then Nat.pow 2 (f.fraction + f.exponent) else 0

def nanBits (f : BinaryFormat) : Nat :=
  f.special * Nat.pow 2 f.fraction + Nat.pow 2 (f.fraction - 1)

/-- How far a significand can be doubled until it fills its bits; not below the
smallest step. -/
def shiftOf (f : BinaryFormat) (m : Nat) (q : Int) : Nat :=
  min (f.fraction - Nat.log2 m) (q - f.least).toNat

/-- The bits of a number that the format holds exactly. -/
def encode (f : BinaryFormat) : Binary → Nat
  | .nan => f.nanBits
  | .infinite negative => f.signBit negative + f.special * Nat.pow 2 f.fraction
  | .finite negative m q =>
      if m = 0 then f.signBit negative
      else
        let shift := f.shiftOf m q
        let m := m * Nat.pow 2 shift
        let q := q - shift
        if m < Nat.pow 2 f.fraction then f.signBit negative + m
        else
          f.signBit negative + (q - f.least + 1).toNat * Nat.pow 2 f.fraction
            + (m - Nat.pow 2 f.fraction)

end BinaryFormat

/-- The bits in double precision of a number in single precision. -/
def widen (bits : Nat) : Nat := binary64.encode (binary32.decode bits)

end LogInterface.Number
