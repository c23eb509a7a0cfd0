/-
# Token.Literal -- what literals denote

The value of a string literal and of a whole number, read from the literal as
it was written.  A number may carry a suffix, which does not change its value;
what has a point or an exponent is no whole number.
-/
import LogInterface.Token.Lexer

namespace LogInterface.Literal

open LogInterface.Text

set_option autoImplicit false

/-! ## Strings -/

/-- What a raw literal denotes, given the characters after its letter. -/
def rawValue (cs : List Char) : List Char :=
  let hashes := (cs.takeWhile (· = '#')).length
  let body := cs.drop (hashes + 1)
  match Quoted.Form.text.rawLength hashes body with
  | some n => body.take (n - 1 - hashes)
  | none => []

/-- The text that a string literal denotes, if it is one. -/
def string? (written : String) : Option String :=
  match written.toList with
  | '"' :: cs => some (String.ofList (Quoted.Form.text.bodyValue cs))
  | 'r' :: cs => some (String.ofList (rawValue cs))
  | _ => none

/-! ## Whole numbers -/

/-- Does an exponent follow the letter?  Underscores do not count. -/
def hasExponent : List Char → Bool
  | [] => false
  | c :: cs =>
      if c = '_' then hasExponent cs
      else c.isDigit || c = '+' || c = '-'

/-- Reads the digits of a whole number in a base: their value, if there was a
digit, and what follows. -/
def digits (base : Nat) :
    (value : Nat) → (some? : Bool) → List Char → Option (Nat × Bool × List Char)
  | value, some?, [] => some (value, some?, [])
  | value, some?, c :: cs =>
      if c = '_' then digits base value some? cs
      else if c = '.' && base == 10 then none
      else if (c = 'e' || c = 'E') && base == 10 then
        if hasExponent cs then none else some (value, some?, c :: cs)
      else match Quoted.hexDigit? c with
        | some d =>
            if c.isDigit || base == 16 then
              if d < base then digits base (value * base + d) true cs else none
            else some (value, some?, c :: cs)
        | none => some (value, some?, c :: cs)

/-- Can a word follow a number as its suffix? -/
def isSuffix : List Char → Bool
  | [] => true
  | c :: cs => isIdentStart c && cs.all isIdentContinue

/-- The value of a whole number as written and its suffix, if it is one. -/
def whole? (written : String) : Option (Nat × String) := do
  let cs := written.toList
  let first ← cs.head?
  if !first.isDigit then none
  let (base, n) := Lexer.announcedBase cs
  let (value, some?, rest) ← digits base 0 false (cs.drop n)
  if some? && isSuffix rest then some (value, String.ofList rest) else none

/-- The value of a whole number as written, if it is one. -/
def integer? (written : String) : Option Nat := (whole? written).map Prod.fst

def isNumber (written : String) : Bool :=
  match written.toList with
  | c :: _ => c.isDigit
  | [] => false

/-- Is the literal a number with a point or an exponent? -/
def isFloat (written : String) : Bool := isNumber written && (integer? written).isNone

/-! ## Positions -/

/-- The number of a field without a name, or why the text is none. -/
def position (negative : Bool) (written : String) : Except String Nat :=
  match whole? written with
  | none => .error "expected integer literal"
  | some (n, suffix) =>
      if suffix != "" then .error "expected unsuffixed integer"
      else if negative then .error "invalid digit found in string"
      else if n < UInt32.size then .ok n
      else .error "number too large to fit in target type"

/-! ## Characters -/

/-- Is the literal a character or a number of one byte? -/
def isChar (written : String) : Bool :=
  match written.toList with
  | '\'' :: _ => true
  | 'b' :: '\'' :: _ => true
  | _ => false

end LogInterface.Literal
