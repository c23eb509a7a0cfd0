/-
# Number.Decimal -- the decimals of a binary number

A positive number is `num / den`.  `shortest` finds the fewest digits that still
denote the same binary number, and among those the nearest; `fixed` rounds to some
places behind the point, a tie to the even digit.  Everything is computed with
whole numbers.
-/
import LogInterface.Number.Binary

namespace LogInterface.Number

set_option autoImplicit false

/-- A quotient of whole numbers. -/
structure Ratio where
  num : Nat
  den : Nat
  deriving DecidableEq, Repr

namespace Ratio

def ofPower (m base : Nat) (q : Int) : Ratio :=
  if q < 0 then ⟨m, Nat.pow base q.natAbs⟩ else ⟨m * Nat.pow base q.natAbs, 1⟩

def overTens (r : Ratio) (e : Int) : Ratio :=
  let power := Nat.pow 10 e.natAbs
  if e < 0 then ⟨r.num * power, r.den⟩ else ⟨r.num, r.den * power⟩

def floor (r : Ratio) : Nat := r.num / r.den

/-- The nearest whole number, of two the even one. -/
def roundEven (r : Ratio) : Nat :=
  let whole := r.num / r.den
  let rest := 2 * (r.num % r.den)
  if rest > r.den ∨ (rest = r.den ∧ whole % 2 = 1) then whole + 1 else whole

/-- Is the number less than the power of ten? -/
def belowTens (r : Ratio) (e : Int) : Bool := (r.overTens e).num < (r.overTens e).den

end Ratio

/-! ## Shortest digits -/

/-- The reals that round to a binary number, in quarters of its step. -/
structure Interval where
  low : Nat
  value : Nat
  high : Nat
  /-- Do the ends belong to it? -/
  closed : Bool
  /-- The exponent of the quarter step. -/
  quarter : Int
  deriving DecidableEq, Repr

/-- The reals that round to `m * 2 ^ q`.  Below a power of two the step is half as
large; the ends belong to it if the significand is even. -/
def Interval.of (f : BinaryFormat) (m : Nat) (q : Int) : Interval :=
  { low := 4 * m - if m = Nat.pow 2 f.fraction ∧ q > f.least then 1 else 2
    value := 4 * m
    high := 4 * m + 2
    closed := m % 2 = 0
    quarter := q - 2 }

/-- Does the whole number `c` times a unit lie in the interval?  The ends are given
in that unit. -/
def holds (closed : Bool) (low high : Ratio) (c : Nat) : Bool :=
  if closed then low.num ≤ c * low.den && c * high.den ≤ high.num
  else low.num < c * low.den && c * high.den < high.num

/-- The nearer of `c` and `c + 1`, and of two equally near ones the larger. -/
def nearer (value : Ratio) (c : Nat) : Nat :=
  if 2 * (value.num - c * value.den) < value.den then c else c + 1

/-- A whole number of units in the interval, where `unit` is a power of ten. -/
def Interval.hit? (i : Interval) (unit : Int) : Option Nat :=
  let value := (Ratio.ofPower i.value 2 i.quarter).overTens unit
  let low := (Ratio.ofPower i.low 2 i.quarter).overTens unit
  let high := (Ratio.ofPower i.high 2 i.quarter).overTens unit
  let c := value.floor
  match holds i.closed low high c, holds i.closed low high (c + 1) with
  | true, true => some (nearer value c)
  | true, false => some c
  | false, true => some (c + 1)
  | false, false => none

def digitCount (n : Nat) : Nat := (Nat.toDigits 10 n).length

/-- The least exponent of ten above a number. -/
def magnitude (r : Ratio) : Int :=
  let e : Int := digitCount r.num - digitCount r.den
  if r.belowTens e then e else e + 1

/-- The first whole number of units that the interval holds, for units of one digit
less and less; `fuel` bounds the digits. -/
def Interval.search (i : Interval) : (fuel : Nat) → (unit : Int) → Nat × Int
  | 0, unit => (((Ratio.ofPower i.value 2 i.quarter).overTens unit).floor, unit)
  | fuel + 1, unit =>
      match i.hit? unit with
      | some c => (c, unit)
      | none => i.search fuel (unit - 1)

/-- Digits, and the power of ten that their first one stands below. -/
structure Decimal where
  digits : List Char
  /-- The number is `0.d₁d₂… * 10 ^ point`. -/
  point : Int
  deriving DecidableEq, Repr

/-- How many digits a binary number needs at most. -/
def mostDigits : Nat := 17

/-- Digits without zeros at their end. -/
def withoutZeros (cs : List Char) : List Char := (cs.reverse.dropWhile (· = '0')).reverse

/-- The fewest digits that denote `m * 2 ^ q`; zero is a single digit. -/
def shortest (f : BinaryFormat) (m : Nat) (q : Int) : Decimal :=
  if m = 0 then ⟨['0'], 1⟩
  else
    let e := magnitude (Ratio.ofPower m 2 q)
    let (c, unit) := (Interval.of f m q).search mostDigits (e - 1)
    let digits := Nat.toDigits 10 c
    ⟨withoutZeros digits, unit + digits.length⟩

/-! ## Written forms -/

def zeros (n : Nat) : List Char := List.replicate n '0'

/-- A whole part and at least `least` places behind the point. -/
def joined (whole places : List Char) (least : Nat) : List Char :=
  let places := places ++ zeros (least - places.length)
  if places.isEmpty then whole else whole ++ '.' :: places

/-- A decimal without an exponent, with at least `least` places behind the point. -/
def Decimal.positional (d : Decimal) (least : Nat) : List Char :=
  if d.point ≤ 0 then joined ['0'] (zeros d.point.natAbs ++ d.digits) least
  else
    let n := d.point.toNat
    joined (d.digits.take n ++ zeros (n - d.digits.length)) (d.digits.drop n) least

/-- A decimal with one digit in front of the point and an exponent. -/
def Decimal.scientific (d : Decimal) : List Char :=
  joined (d.digits.take 1) (d.digits.drop 1) 0 ++ 'e' :: (Int.repr (d.point - 1)).toList

/-- A number with exactly so many places behind the point, a tie going to the even
digit. -/
def fixed (r : Ratio) (places : Nat) : List Char :=
  let n := (r.overTens (-places)).roundEven
  let digits := Nat.toDigits 10 n
  let digits := zeros (places + 1 - digits.length) ++ digits
  joined (digits.take (digits.length - places)) (digits.drop (digits.length - places)) places

end LogInterface.Number
