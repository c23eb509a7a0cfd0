/-
# Format.Spec -- how a value is asked to be written

A `Spec` asks for a width, a precision, an alignment and a few forms.  Texts are
cut to the precision and stand left unless asked otherwise; numbers are never
cut, stand right, and can be filled with zeros behind their sign.  Lengths are
counted in characters, and what is too long for a width stays as it is.

`debugList` and `debugStruct` write values that are made of others; in the
alternate form each part stands on lines of its own.
-/
namespace LogInterface.Format

set_option autoImplicit false

/-- Where a value stands in its width. -/
inductive Alignment where
  | left
  | center
  | right
  deriving DecidableEq, Repr

/-- How a value is asked to be written. -/
structure Spec where
  fill : Char := ' '
  align : Option Alignment := none
  /-- Does a number that is not negative get a plus sign? -/
  plus : Bool := false
  /-- Is the alternate form asked for? -/
  alternate : Bool := false
  /-- Is a number filled with zeros behind its sign? -/
  zeros : Bool := false
  width : Option Nat := none
  precision : Option Nat := none
  /-- Are integers shown in base 16 to a reader of debugging output? -/
  hex : Bool := false
  deriving DecidableEq, Repr

/-- Nothing asked for. -/
def Spec.plain : Spec := {}

def repeated (n : Nat) (c : Char) : List Char := List.replicate n c

def fillTo (width : Nat) (align : Alignment) (fill : Char) (cs : List Char) : List Char :=
  let missing := width - cs.length
  match align with
  | .left => cs ++ repeated missing fill
  | .right => repeated missing fill ++ cs
  | .center => repeated (missing / 2) fill ++ cs ++ repeated (missing - missing / 2) fill

namespace Spec

/-- Fills characters up to the width; `standard` is where they stand unless asked. -/
def fillChars (spec : Spec) (standard : Alignment) (cs : List Char) : List Char :=
  match spec.width with
  | none => cs
  | some width => fillTo width (spec.align.getD standard) spec.fill cs

/-- A text: cut to the precision, then filled up to the width. -/
def textChars (spec : Spec) (cs : List Char) : List Char :=
  spec.fillChars .left
    (match spec.precision with
      | none => cs
      | some most => cs.take most)

def pad (spec : Spec) (s : String) : String := String.ofList (spec.textChars s.toList)

def sign (spec : Spec) (negative : Bool) : List Char :=
  if negative then ['-'] else if spec.plus then ['+'] else []

/-- A sign and digits, filled up to the width. -/
def numberChars (spec : Spec) (sign digits : List Char) : List Char :=
  if spec.zeros then
    sign ++ repeated (spec.width.getD 0 - sign.length - digits.length) '0' ++ digits
  else spec.fillChars .right (sign ++ digits)

def integer (spec : Spec) (i : Int) : String :=
  String.ofList (spec.numberChars (spec.sign (i < 0)) (Nat.toDigits 10 i.natAbs))

end Spec

/-! ## Values made of others -/

/-- Puts four blanks in front of every line that has a character, be it its end. -/
def indentLines : (atStart : Bool) → List Char → List Char
  | _, [] => []
  | atStart, c :: cs =>
      (if atStart then [' ', ' ', ' ', ' '] else []) ++ c :: indentLines (c = '\n') cs

/-- A text with every line moved to the right. -/
def indented (s : String) : String := String.ofList (indentLines true s.toList)

def ownLines (s : String) : String := indented (s ++ ",\n")

/-- A list of values that are already written. -/
def debugList (alternate : Bool) (items : List String) : String :=
  if items.isEmpty then "[]"
  else if alternate then "[\n" ++ String.join (items.map ownLines) ++ "]"
  else "[" ++ ", ".intercalate items ++ "]"

/-- A named value around another one that is already written. -/
def debugTuple (alternate : Bool) (name item : String) : String :=
  if alternate then name ++ "(\n" ++ ownLines item ++ ")" else name ++ "(" ++ item ++ ")"

/-- A structure of named values that are already written; `open_` if it has more of
them. -/
def debugStruct (alternate open_ : Bool) (name : String) (fields : List (String × String)) :
    String :=
  let fields := fields.map fun (name, value) => name ++ ": " ++ value
  if alternate then
    name ++ " \x7b\n" ++ String.join (fields.map ownLines)
      ++ (if open_ then indented "..\n" else "") ++ "\x7d"
  else
    name ++ " \x7b " ++ ", ".intercalate (fields ++ if open_ then [".."] else []) ++ " \x7d"

end LogInterface.Format
