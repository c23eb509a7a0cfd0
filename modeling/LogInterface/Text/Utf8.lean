/-
# Text.Utf8 -- bytes as text

`decode` reads bytes as characters; each longest part that starts like a character
and is none is read as `none`.  `ofBytes?` takes only bytes without such parts,
`ofBytesLossy` shows one replacement character for each of them.
-/
import LogInterface.Text.Location

namespace LogInterface.Text

set_option autoImplicit false

/-- What stands for bytes that are no character. -/
def replacement : Char := '\uFFFD'

/-- How many bytes follow a first byte, and between which bounds the next one lies. -/
structure Lead where
  following : Nat
  low : Nat := 0x80
  high : Nat := 0xBF
  deriving DecidableEq, Repr

/-- The first byte of a character of several bytes. -/
def Lead.ofByte? (b : Nat) : Option Lead :=
  if b < 0xC2 then none
  else if b ≤ 0xDF then some { following := 1 }
  else if b = 0xE0 then some { following := 2, low := 0xA0 }
  else if b = 0xED then some { following := 2, high := 0x9F }
  else if b ≤ 0xEF then some { following := 2 }
  else if b = 0xF0 then some { following := 3, low := 0x90 }
  else if b ≤ 0xF3 then some { following := 3 }
  else if b = 0xF4 then some { following := 3, high := 0x8F }
  else none

/-- The bits that a first byte gives. -/
def leadBits (following b : Nat) : Nat :=
  match following with
  | 1 => b % 32
  | 2 => b % 16
  | _ => b % 8

/-- How many of the next bytes belong to a character that has begun. -/
def followingCount : (following low high : Nat) → List UInt8 → Nat
  | 0, _, _, _ => 0
  | _ + 1, _, _, [] => 0
  | n + 1, low, high, b :: bs =>
      if low ≤ b.toNat ∧ b.toNat ≤ high then 1 + followingCount n 0x80 0xBF bs else 0

/-- The character that starts with a byte, if it is one, and how many bytes behind
the first one belong to it. -/
def decodeFirst (b : UInt8) (rest : List UInt8) : Option Char × Nat :=
  if b.toNat < 0x80 then (some (Char.ofNat b.toNat), 0)
  else
    match Lead.ofByte? b.toNat with
    | none => (none, 0)
    | some lead =>
        let n := followingCount lead.following lead.low lead.high rest
        if n = lead.following then
          let code := (rest.take n).foldl (fun code b => 64 * code + b.toNat % 64)
            (leadBits lead.following b.toNat)
          (some (Char.ofNat code), n)
        else (none, n)

/-- The characters of some bytes; `fuel` bounds their number. -/
def decodeWithin : (fuel : Nat) → List UInt8 → List (Option Char)
  | 0, _ => []
  | _, [] => []
  | fuel + 1, b :: rest =>
      let (c, n) := decodeFirst b rest
      c :: decodeWithin fuel (rest.drop n)

/-- The characters of some bytes, and `none` for each part that is none. -/
def decode (bytes : List UInt8) : List (Option Char) := decodeWithin bytes.length bytes

def ofBytes? (bytes : List UInt8) : Option String :=
  ((decode bytes).mapM id).map String.ofList

/-- The text of some bytes, with a replacement character for what is none. -/
def ofBytesLossy (bytes : List UInt8) : String :=
  String.ofList ((decode bytes).map fun c => c.getD replacement)

def bytesOf (s : String) : List UInt8 := s.toUTF8.toList

end LogInterface.Text
