/-
# Value.Field -- the values of structured fields

A `FieldValue` is what a sink sees of an argument: a plain value, a value that is
only known by its text, or nothing.  `display` writes it for people, `debug` for a
reader of debugging output: there texts and characters stand between quotes.
-/
import LogInterface.Number.Text
import LogInterface.Text.Escape
import LogInterface.Text.Utf8
import LogInterface.Value.Duration

namespace LogInterface

open LogInterface.Text LogInterface.Format LogInterface.Number

set_option autoImplicit false

/-! ## Values known by their text -/

/-- A value that is known by its text for people. -/
inductive Displayed where
  /-- A text that follows the asked form. -/
  | text (s : String)
  | integer (i : Int)
  /-- A text that is written as it stands. -/
  | verbatim (s : String)
  deriving DecidableEq, Repr

def Displayed.display (spec : Spec) : Displayed → String
  | .text s => spec.pad s
  | .integer i => spec.integer i
  | .verbatim s => s

/-- A value that is known by its text for a reader of debugging output. -/
inductive Debugged where
  | text (s : String)
  | char (c : Char)
  | integer (v : Int64)
  /-- A number in double precision, by its bits. -/
  | float (bits : UInt64)
  | unit
  | duration (d : Duration)
  | list (items : List Debugged)
  | absent
  | present (d : Debugged)

/-- A whole number for a reader of debugging output. -/
def debugInteger (spec : Spec) (v : Int64) : String :=
  if spec.hex then
    String.ofList (spec.numberChars (spec.sign false) (Nat.toDigits 16 v.toUInt64.toNat))
  else spec.integer v.toInt

mutual

/-- The text for a reader of debugging output. -/
def Debugged.debug (spec : Spec) : Debugged → String
  | .text s => debugText s
  | .char c => debugChar c
  | .integer v => debugInteger spec v
  | .float bits => floatText binary64 debugStyle spec bits.toNat
  | .unit => spec.pad "()"
  | .duration d => d.text spec
  | .list items => debugList spec.alternate (debugAll spec items)
  | .absent => "None"
  | .present d => debugTuple spec.alternate "Some" (d.debug spec)

def debugAll (spec : Spec) : List Debugged → List String
  | [] => []
  | d :: ds => d.debug spec :: debugAll spec ds

end

/-! ## Field values -/

/-- The value of one structured field. -/
inductive FieldValue where
  | str (s : String)
  | i64 (v : Int64)
  | u64 (v : UInt64)
  | i128 (v : BitVec 128)
  | u128 (v : BitVec 128)
  /-- A number in double precision, by its bits. -/
  | f64 (bits : UInt64)
  | bool (b : Bool)
  | char (c : Char)
  | displayed (d : Displayed)
  | debugged (d : Debugged)
  /-- A path that is not text. -/
  | path (bytes : List UInt8)
  | absent

def truthText (b : Bool) : String := if b then "true" else "false"

namespace FieldValue

def kind : FieldValue → String
  | .str _ => "Str"
  | .i64 _ => "I64"
  | .u64 _ => "U64"
  | .i128 _ => "I128"
  | .u128 _ => "U128"
  | .f64 _ => "F64"
  | .bool _ => "Bool"
  | .char _ => "Char"
  | .displayed _ => "Display"
  | .debugged _ => "Debug"
  | .path _ => "Path"
  | .absent => "None"

/-- The text for people.  What is absent is written as `(null)` in every form. -/
def display (spec : Spec) : FieldValue → String
  | .str s => spec.pad s
  | .i64 v => spec.integer v.toInt
  | .u64 v => spec.integer v.toNat
  | .i128 v => spec.integer v.toInt
  | .u128 v => spec.integer v.toNat
  | .f64 bits => floatText binary64 plainStyle spec bits.toNat
  | .bool b => spec.pad (truthText b)
  | .char c => spec.pad (String.singleton c)
  | .displayed d => d.display spec
  | .debugged d => d.debug spec
  | .path bytes => spec.pad (ofBytesLossy bytes)
  | .absent => "(null)"

/-- The text for a reader of debugging output. -/
def debug (spec : Spec) : FieldValue → String
  | .str s => debugText s
  | .char c => debugChar c
  | v => v.display spec

/-- The text for people, with nothing asked for. -/
def text (v : FieldValue) : String := v.display .plain

def asStr : FieldValue → Option String
  | .str s => some s
  | _ => none

def integer? : FieldValue → Option Int
  | .i64 v => some v.toInt
  | .u64 v => some v.toNat
  | .i128 v => some v.toInt
  | .u128 v => some v.toNat
  | _ => none

/-- The whole number of a value, if it fits in 64 bits with a sign. -/
def asI64 (v : FieldValue) : Option Int64 :=
  v.integer?.bind fun i =>
    if Int64.minValue.toInt ≤ i ∧ i ≤ Int64.maxValue.toInt then some (Int64.ofInt i) else none

/-- The bits of a number in double precision. -/
def asF64 : FieldValue → Option UInt64
  | .f64 bits => some bits
  | _ => none

def asBool : FieldValue → Option Bool
  | .bool b => some b
  | _ => none

def isAbsent : FieldValue → Bool
  | .absent => true
  | _ => false

end FieldValue

end LogInterface
