/-
# Value.Duration -- spans of time as text

A span is written in the largest unit of which it holds at least one, with the
places that it needs or with as many as the precision asks for.
-/
import LogInterface.Format.Spec
import LogInterface.Number.Decimal

namespace LogInterface

open LogInterface.Format LogInterface.Number

set_option autoImplicit false

/-- A span of time. -/
structure Duration where
  seconds : Nat
  /-- Less than a second. -/
  nanoseconds : Nat
  deriving DecidableEq, Repr

namespace Duration

def total (d : Duration) : Nat := d.seconds * Nat.pow 10 9 + d.nanoseconds

/-- The unit of a span: its name, and how many places a nanosecond lies behind it. -/
def unit (d : Duration) : String × Nat :=
  if d.seconds > 0 then ("s", 9)
  else if d.nanoseconds ≥ Nat.pow 10 6 then ("ms", 6)
  else if d.nanoseconds ≥ Nat.pow 10 3 then ("µs", 3)
  else ("ns", 0)

/-- Places behind a point without zeros at their end. -/
def trimPlaces (cs : List Char) : List Char :=
  if cs.contains '.' then
    let kept := withoutZeros cs
    if kept.getLast? = some '.' then kept.dropLast else kept
  else cs

def chars (d : Duration) (precision : Option Nat) : List Char :=
  let (name, places) := d.unit
  let r : Ratio := ⟨d.total, Nat.pow 10 places⟩
  (match precision with
    | some asked => fixed r asked
    | none => trimPlaces (fixed r places))
    ++ name.toList

def text (d : Duration) (spec : Spec) : String :=
  String.ofList
    (spec.fillChars .left ((if spec.plus then ['+'] else []) ++ d.chars spec.precision))

end Duration

end LogInterface
