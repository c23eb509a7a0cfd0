/-
# Value.Argument -- what a log method can be given

An `Argument` is a value as the caller has it: plain values of all widths, values
behind references and boxes, optional ones, and values that the caller wraps so
that they are known by their text.  `Argument.value` is the field value it becomes;
`Argument.display?` is the text of a plain value by itself.
-/
import LogInterface.Value.Address
import LogInterface.Value.Field

namespace LogInterface

open LogInterface.Text LogInterface.Format LogInterface.Number

set_option autoImplicit false

/-! ## Whole numbers -/

/-- A type of whole numbers of some width. -/
structure IntegerType where
  signed : Bool
  /-- The number of bits. -/
  width : Nat
  deriving DecidableEq, Repr

namespace IntegerType

def least (t : IntegerType) : Int :=
  if t.signed then -(Nat.pow 2 (t.width - 1) : Int) else 0

def most (t : IntegerType) : Int :=
  (Nat.pow 2 (if t.signed then t.width - 1 else t.width) : Int) - 1

/-- The number that decimal digits denote. -/
def digitsValue? (cs : List Char) : Option Nat :=
  if cs.isEmpty || !cs.all Char.isDigit then none
  else some (cs.foldl (fun n c => 10 * n + (c.toNat - '0'.toNat)) 0)

/-- The number that a text denotes, if the type holds it.  A plus sign is allowed, a
minus sign only where the type has one. -/
def parse? (t : IntegerType) (text : String) : Option Int :=
  let value : Option Int :=
    match text.toList with
    | '+' :: cs => (digitsValue? cs).map Int.ofNat
    | '-' :: cs => if t.signed then (digitsValue? cs).map fun n => -(n : Int) else none
    | cs => (digitsValue? cs).map Int.ofNat
  value.bind fun i => if t.least ≤ i ∧ i ≤ t.most then some i else none

/-- The number that some bits of the type denote. -/
def toInt (t : IntegerType) (v : BitVec t.width) : Int := if t.signed then v.toInt else v.toNat

end IntegerType

/-! ## Arguments -/

/-- What stands between a caller and a value. -/
inductive Pointer where
  | ref | mutRef | box | arc | rc
  deriving DecidableEq, Repr

/-- A value as a caller has it. -/
inductive Argument where
  | text (s : String)
  | integer (t : IntegerType) (v : BitVec t.width)
  | float32 (bits : UInt32)
  | float64 (bits : UInt64)
  | bool (b : Bool)
  | char (c : Char)
  | absent
  | present (a : Argument)
  | behind (p : Pointer) (a : Argument)
  | address (a : Address)
  | socket (s : Socket)
  | duration (d : Duration)
  | path (bytes : List UInt8)
  | displayed (d : Displayed)
  | debugged (d : Debugged)

namespace Argument

/-- The value of a whole number: in 64 bits where they hold its type. -/
def integerValue (t : IntegerType) (v : BitVec t.width) : FieldValue :=
  match t.signed, decide (t.width ≤ 64) with
  | true, true => .i64 (Int64.ofInt (t.toInt v))
  | false, true => .u64 (UInt64.ofNat v.toNat)
  | true, false => .i128 (BitVec.ofInt 128 (t.toInt v))
  | false, false => .u128 (BitVec.ofNat 128 v.toNat)

def value : Argument → FieldValue
  | .text s => .str s
  | .integer t v => integerValue t v
  | .float32 bits => .f64 (UInt64.ofNat (widen bits.toNat))
  | .float64 bits => .f64 bits
  | .bool b => .bool b
  | .char c => .char c
  | .absent => .absent
  | .present a => a.value
  | .behind _ a => a.value
  | .address a => .displayed (.text a.text)
  | .socket s => .displayed (.text s.text)
  | .duration d => .debugged (.duration d)
  | .path bytes =>
      match ofBytes? bytes with
      | some s => .str s
      | none => .path bytes
  | .displayed d => .displayed d
  | .debugged d => .debugged d

/-- The text of a plain value by itself. -/
def display? (spec : Spec) : Argument → Option String
  | .text s => some (spec.pad s)
  | .integer t v => some (spec.integer (t.toInt v))
  | .float32 bits => some (floatText binary32 plainStyle spec bits.toNat)
  | .float64 bits => some (floatText binary64 plainStyle spec bits.toNat)
  | .bool b => some (spec.pad (truthText b))
  | .char c => some (spec.pad (String.singleton c))
  | .present a => a.display? spec
  | .behind _ a => a.display? spec
  | _ => none

end Argument

end LogInterface
