/-
# Value.Address -- network addresses as text

The longest run of zero groups of a long address, and of several the first one, is
written as two colons if it has at least two groups.  A long address that holds a
short one ends in it.
-/
namespace LogInterface

set_option autoImplicit false

/-- A network address. -/
inductive Address where
  | v4 (octets : Vector UInt8 4)
  | v6 (groups : Vector UInt16 8)
  deriving DecidableEq, Repr

/-- A run of groups: where it starts and how long it is. -/
structure Run where
  start : Nat := 0
  length : Nat := 0
  deriving DecidableEq, Repr

/-- The first longest run of zeros, given the best one so far and the one that ends
here. -/
def longestZeros : (index : Nat) → (current best : Run) → List UInt16 → Run
  | _, _, best, [] => best
  | index, current, best, g :: gs =>
      if g = 0 then
        let current : Run :=
          ⟨if current.length = 0 then index else current.start, current.length + 1⟩
        longestZeros (index + 1) current (if current.length > best.length then current else best) gs
      else longestZeros (index + 1) {} best gs

def groupsText (gs : List UInt16) : String :=
  ":".intercalate (gs.map fun g => String.ofList (Nat.toDigits 16 g.toNat))

def octetsText (os : List Nat) : String := ".".intercalate (os.map Nat.repr)

/-- The short address that a long one holds. -/
def mappedOctets? : List UInt16 → Option (List Nat)
  | [0, 0, 0, 0, 0, 0xFFFF, a, b] =>
      some [a.toNat / 256, a.toNat % 256, b.toNat / 256, b.toNat % 256]
  | _ => none

def Address.text : Address → String
  | .v4 octets => octetsText (octets.toList.map UInt8.toNat)
  | .v6 groups =>
      let gs := groups.toList
      match mappedOctets? gs with
      | some os => "::ffff:" ++ octetsText os
      | none =>
          let run := longestZeros 0 {} {} gs
          if run.length > 1 then
            groupsText (gs.take run.start) ++ "::" ++ groupsText (gs.drop (run.start + run.length))
          else groupsText gs

structure Socket where
  address : Address
  port : UInt16
  /-- The scope of a long address; zero for none. -/
  scope : UInt32 := 0
  deriving DecidableEq, Repr

def Socket.text (s : Socket) : String :=
  let host :=
    match s.address with
    | .v4 _ => s.address.text
    | .v6 _ =>
        "[" ++ s.address.text
          ++ (if s.scope = 0 then "" else "%" ++ Nat.repr s.scope.toNat) ++ "]"
  host ++ ":" ++ Nat.repr s.port.toNat

end LogInterface
