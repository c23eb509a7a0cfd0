/-
# Token.Quoted -- the inside of quoted literals

A quoted literal is read by a machine with one state per kind of escape.  Each
step takes one character and may give a character of the literal's value, so
one machine finds the end of a literal (`bodyLength`) and decodes it
(`bodyValue`).

The three forms differ in few points: a byte string holds ASCII and no Unicode
escape, and a string that ends in a null byte holds no other null.
-/
import LogInterface.Token.Basic

namespace LogInterface.Quoted

set_option autoImplicit false

/-- What a quoted literal denotes. -/
inductive Form where
  | text
  | bytes
  | terminated
  deriving DecidableEq

def hexDigit? (c : Char) : Option Nat :=
  if c.isDigit then some (c.toNat - 0x30)
  else if 'a' ≤ c && c ≤ 'f' then some (c.toNat - 0x57)
  else if 'A' ≤ c && c ≤ 'F' then some (c.toNat - 0x37)
  else none

/-- Between two characters of a quoted literal. -/
inductive State where
  /-- In the text itself. -/
  | plain
  /-- After a carriage return, which only a line feed may follow. -/
  | feed
  /-- After a backslash. -/
  | escape
  /-- Before the first digit of a two-digit escape. -/
  | high
  /-- Before the second digit of a two-digit escape. -/
  | low (high : Nat)
  /-- Before the brace of a Unicode escape. -/
  | brace
  /-- In the digits of a Unicode escape. -/
  | digits (value count : Nat)
  /-- In the white space after a backslash at the end of a line. -/
  | skip
  /-- After a carriage return in that white space. -/
  | skipFeed
  /-- After the closing quote. -/
  | closed
  deriving DecidableEq

/-- One character of the text itself. -/
def Form.plainStep (form : Form) (c : Char) : Option (State × List Char) :=
  if c = '"' then some (.closed, [])
  else if c = '\r' then some (.feed, [])
  else if c = '\\' then some (.escape, [])
  else match form with
    | .text => some (.plain, [c])
    | .bytes => if c.toNat < 0x80 then some (.plain, [c]) else none
    | .terminated => if c = '\x00' then none else some (.plain, [c])

def Form.escapeStep (form : Form) (c : Char) : Option (State × List Char) :=
  if c = 'n' then some (.plain, ['\n'])
  else if c = 'r' then some (.plain, ['\r'])
  else if c = 't' then some (.plain, ['\t'])
  else if c = '\\' || c = '\'' || c = '"' then some (.plain, [c])
  else if c = '0' then (if form = .terminated then none else some (.plain, ['\x00']))
  else if c = 'x' then some (.high, [])
  else if c = 'u' then (if form = .bytes then none else some (.brace, []))
  else if c = '\n' then some (.skip, [])
  else if c = '\r' then some (.skipFeed, [])
  else none

/-- One character of a quoted literal: the next state and what was denoted. -/
def Form.step (form : Form) : State → Char → Option (State × List Char)
  | .plain, c => form.plainStep c
  | .feed, c => if c = '\n' then some (.plain, ['\n']) else none
  | .escape, c => form.escapeStep c
  | .high, c => do
      let d ← hexDigit? c
      if form = .text && d > 7 then none else some (.low d, [])
  | .low high, c => do
      let d ← hexDigit? c
      if form = .terminated && high * 16 + d == 0 then none
      else some (.plain, [Char.ofNat (high * 16 + d)])
  | .brace, c => if c = '\x7b' then some (.digits 0 0, []) else none
  | .digits value count, c =>
      match hexDigit? c with
      | some d => if count = 6 then none else some (.digits (value * 16 + d) (count + 1), [])
      | none =>
          if count = 0 then none
          else if c = '_' then some (.digits value count, [])
          else if c = '\x7d' then
            if Nat.isValidChar value && !(form = .terminated && value == 0) then
              some (.plain, [Char.ofNat value])
            else none
          else none
  | .skip, c =>
      if c = ' ' || c = '\t' || c = '\n' then some (.skip, [])
      else if c = '\r' then some (.skipFeed, [])
      else form.plainStep c
  | .skipFeed, c => if c = '\n' then some (.skip, []) else none
  | .closed, _ => none

/-- How many characters lead from a state to one that satisfies `stop`. -/
def Form.lengthUntil (form : Form) (stop : State → Bool) : State → List Char → Option Nat
  | _, [] => none
  | state, c :: cs =>
      match form.step state c with
      | none => none
      | some (next, _) =>
          if stop next then some 1 else (form.lengthUntil stop next cs).map (· + 1)

/-- The length of a literal after its opening quote, the closing one included. -/
def Form.bodyLength (form : Form) (cs : List Char) : Option Nat :=
  form.lengthUntil (· = .closed) .plain cs

def Form.escapeLength (form : Form) (cs : List Char) : Option Nat :=
  match cs with
  | '\n' :: _ => none
  | '\r' :: _ => none
  | _ => form.lengthUntil (· = .plain) .escape cs

/-- What the characters from a state to the closing quote denote. -/
def Form.valueFrom (form : Form) : State → List Char → List Char
  | _, [] => []
  | state, c :: cs =>
      match form.step state c with
      | none => []
      | some (next, shown) => shown ++ form.valueFrom next cs

/-- What a literal denotes, given the characters after its opening quote. -/
def Form.bodyValue (form : Form) (cs : List Char) : List Char := form.valueFrom .plain cs

/-! ## Raw literals -/

/-- Is a character allowed in a raw literal? -/
def Form.rawAllows : Form → Char → Bool
  | .text, _ => true
  | .bytes, c => c.toNat < 0x80
  | .terminated, c => c ≠ '\x00'

/-- Do `n` number signs come next? -/
def startsWithHashes : Nat → List Char → Bool
  | 0, _ => true
  | n + 1, '#' :: cs => startsWithHashes n cs
  | _ + 1, _ => false

/-- The length of a raw literal after its opening quote. -/
def Form.rawLength (form : Form) (hashes : Nat) : List Char → Option Nat
  | [] => none
  | '"' :: cs =>
      if startsWithHashes hashes cs then some (1 + hashes)
      else (form.rawLength hashes cs).map (· + 1)
  | '\r' :: '\n' :: cs => (form.rawLength hashes cs).map (· + 2)
  | '\r' :: _ => none
  | c :: cs => if form.rawAllows c then (form.rawLength hashes cs).map (· + 1) else none

/-- The most number signs a raw literal may have. -/
def maxHashes : Nat := 255

/-- The length of a raw literal after its letter `r`. -/
def Form.rawLengthWithHashes (form : Form) (cs : List Char) : Option Nat :=
  let hashes := (cs.takeWhile (· = '#')).length
  match cs.drop hashes with
  | '"' :: rest =>
      if hashes ≤ maxHashes then (form.rawLength hashes rest).map (· + hashes + 1) else none
  | _ => none

end LogInterface.Quoted
