/-
# Text.Location -- lines, columns and byte offsets

A `Location` counts lines and columns from one, columns in characters.  An
offset counts the bytes of the UTF-8 form.

* `splitLines` cuts a text at line feeds, takes one carriage return before a
  line feed away with it, and has no empty last line.
* `takeBytes` finds the characters that fill a number of bytes exactly.
* `Location.ofOffset` is where the text before an offset ends.  An offset
  inside a character counts as the end of the text.
-/
namespace LogInterface.Text

set_option autoImplicit false

/-- The length of the UTF-8 form. -/
def byteLength : List Char → Nat
  | [] => 0
  | c :: cs => c.utf8Size + byteLength cs

theorem byteLength_append (s t : List Char) :
    byteLength (s ++ t) = byteLength s + byteLength t := by
  induction s with
  | nil => simp [byteLength]
  | cons c cs ih => simp [byteLength, ih, Nat.add_assoc]

theorem utf8ByteSize_ofList (cs : List Char) : (String.ofList cs).utf8ByteSize = byteLength cs := by
  induction cs with
  | nil => rfl
  | cons c cs ih =>
      rw [String.ofList_cons, String.utf8ByteSize_append, String.utf8ByteSize_singleton, ih]
      rfl

/-- The leading characters that fill exactly `n` bytes, if a character ends there. -/
def takeBytes : List Char → Nat → Option (List Char)
  | _, 0 => some []
  | [], _ + 1 => none
  | c :: cs, n + 1 =>
      if c.utf8Size ≤ n + 1 then (takeBytes cs (n + 1 - c.utf8Size)).map (c :: ·) else none

theorem takeBytes_append (s t : List Char) :
    takeBytes (s ++ t) (byteLength s) = some s := by
  induction s with
  | nil => cases t <;> simp [byteLength, takeBytes]
  | cons c cs ih =>
      have positive : 0 < c.utf8Size := Char.utf8Size_pos c
      obtain ⟨n, size⟩ : ∃ n, c.utf8Size + byteLength cs = n + 1 :=
        ⟨c.utf8Size + byteLength cs - 1, by omega⟩
      have fits : c.utf8Size ≤ n + 1 := by omega
      have rest : n + 1 - c.utf8Size = byteLength cs := by omega
      simp [byteLength, size, takeBytes, fits, rest, ih]

/-- A line and a column, both counted from one. -/
structure Location where
  line : Nat
  column : Nat
  deriving DecidableEq, Repr

/-- Where the next character stands after this text. -/
def Location.after (before : List Char) : Location :=
  ⟨before.count '\n' + 1, (before.reverse.takeWhile (· ≠ '\n')).length + 1⟩

/-- The location of a byte offset.  Past the end, and inside a character, it
is the end of the text. -/
def Location.ofOffset (source : String) (offset : Nat) : Location :=
  let chars := source.toList
  Location.after ((takeBytes chars (min offset (byteLength chars))).getD chars)

/-- The lines of a text, each without its end. -/
def splitLines : List Char → List (List Char)
  | [] => []
  | '\n' :: cs => [] :: splitLines cs
  | '\r' :: '\n' :: cs => [] :: splitLines cs
  | c :: cs =>
      match splitLines cs with
      | [] => [[c]]
      | line :: lines => (c :: line) :: lines

/-- The numbered line of a text; line zero is the first one. -/
def lineAt? (source : String) (line : Nat) : Option (List Char) :=
  (splitLines source.toList)[line - 1]?

end LogInterface.Text
