/-
# Layout.Engine -- boxes and line breaks

A layout is a list of commands: texts, possible line breaks, and boxes around
them.  `render` decides which breaks become line ends.

* A box is broken if what it holds, up to the next break behind it, is wider than
  the rest of the line; otherwise no break in it ends a line.
* A broken consistent box ends a line at each of its breaks, an inconsistent one
  only where what follows up to the next break does not fit.
* `settle` carries out the commands that look back: a box that holds nothing but
  a break vanishes, and so does a break that stands only for what would follow it.
  Such a break still ends what was measured before it, as a `mark`.

Widths are counted in bytes.
-/
import LogInterface.Text.Location

namespace LogInterface.Layout

open LogInterface.Text

set_option autoImplicit false

/-- The width of a break that always ends the line. -/
def unlimited : Nat := 0xffff

def lineWidth : Int := 89

/-- What is left of a line at least, however deep it is indented. -/
def leastSpace : Int := 60

/-- A place where a line may end. -/
structure Break where
  /-- The width if the line does not end. -/
  blank : Nat := 0
  /-- How much deeper than its box the next line starts. -/
  offset : Int := 0
  /-- What is written before the end of the line. -/
  before : String := ""
  /-- What is written at the start of the next line. -/
  after : String := ""
  /-- What is written if the line does not end. -/
  unbroken : String := ""
  /-- Does the break vanish at the end of its box? -/
  needsMore : Bool := false
  /-- Does the line never end here? -/
  never : Bool := false

/-- What a layout is made of. -/
inductive Command where
  | text (s : String)
  | line (b : Break)
  | opening (offset : Int) (consistent : Bool)
  | closing
  /-- Closes a box that has to break if it is wider than this. -/
  | closingWithin (most : Nat)
  /-- Moves the break that was given last. -/
  | shift (n : Int)
  /-- A blank, if the text before it ends in a point. -/
  | blankBehindPoint
  /-- A break, which is a blank under the same condition if the line does not end. -/
  | breakBehindPoint

/-- A list of commands. -/
abbrev Commands := List Command

/-! ## Settling -/

/-- What is left of the commands when all that looks back is done. -/
inductive Piece where
  | text (s : String)
  | line (b : Break)
  | opening (offset : Int) (consistent : Bool)
  | closing
  /-- A break that vanished. -/
  | mark
  /-- Makes every box around it break. -/
  | force

def Piece.width : Piece → Nat
  | .text s => byteLength s.toList
  | .line b => b.blank
  | .force => unlimited
  | _ => 0

/-- The width since the innermost open box; the pieces are given last first. -/
def widthSince : (depth : Nat) → List Piece → Nat
  | _, [] => 0
  | 0, .opening _ _ :: _ => 0
  | depth + 1, .opening _ _ :: ps => widthSince depth ps
  | depth, .closing :: ps => widthSince (depth + 1) ps
  | depth, p :: ps => p.width + widthSince depth ps

/-- Closes a box; the pieces are given last first. -/
def closeBox : List Piece → List Piece
  | .line _ :: .opening _ _ :: ps => ps
  | .line b :: ps => if b.needsMore then .closing :: .mark :: ps else .closing :: .line b :: ps
  | ps => .closing :: ps

/-- Does the last text end in a point?  The pieces are given last first. -/
def endsInPoint : List Piece → Bool
  | .text s :: _ => s.endsWith "."
  | _ :: ps => endsInPoint ps
  | [] => false

/-- Carries out one command; the pieces are given last first. -/
def settleStep (ps : List Piece) : Command → List Piece
  | .text s => .text s :: ps
  | .line b => .line b :: ps
  | .opening offset consistent => .opening offset consistent :: ps
  | .closing => closeBox ps
  | .closingWithin most =>
      if widthSince 0 ps > most then closeBox (.force :: ps) else closeBox ps
  | .shift n =>
      match ps with
      | .line b :: ps => .line { b with offset := b.offset + n } :: ps
      | ps => ps
  | .blankBehindPoint => if endsInPoint ps then .text " " :: ps else ps
  | .breakBehindPoint => .line { unbroken := if endsInPoint ps then " " else "" } :: ps

def settle (cs : Commands) : List Piece := (cs.foldl settleStep []).reverse

/-! ## Measuring -/

/-- What was measured from the end of the pieces. -/
structure Measured where
  /-- Each piece and its size. -/
  pieces : List (Piece × Nat)
  /-- The width of all of them. -/
  width : Nat
  /-- For the boxes around this place, innermost first, the width from the next
  break at their level on. -/
  targets : List Nat

/-- Measures one more piece in front.  The size of a break runs to the next one at
its level or further out, that of a box to the next one behind it. -/
def measureStep (p : Piece) (m : Measured) : Measured :=
  let width := m.width + p.width
  match p, m.targets with
  | .line _, target :: outer => ⟨(p, width - target) :: m.pieces, width, width :: outer⟩
  | .mark, _ :: outer => ⟨m.pieces, width, width :: outer⟩
  | .closing, target :: outer => ⟨(p, 0) :: m.pieces, width, target :: target :: outer⟩
  | .opening _ _, _ :: target :: outer =>
      ⟨(p, width - target) :: m.pieces, width, target :: outer⟩
  | _, targets => ⟨(p, p.width) :: m.pieces, width, targets⟩

def measure (ps : List Piece) : List (Piece × Nat) := (ps.foldr measureStep ⟨[], 0, [0]⟩).pieces

/-! ## Printing -/

/-- An open box while printing. -/
inductive Frame where
  | fits
  /-- A broken box, and the indentation around it. -/
  | broken (outer : Int) (consistent : Bool)

/-- The state of printing. -/
structure Page where
  written : String := ""
  /-- What is left of the line. -/
  space : Int := lineWidth
  indent : Int := 0
  /-- Blanks that are written before the next text. -/
  pending : Nat := 0
  frames : List Frame := []

/-- Writes the pending blanks and a text. -/
def Page.write (p : Page) (s : String) : Page :=
  { p with written := p.written ++ String.ofList (List.replicate p.pending ' ') ++ s, pending := 0 }

/-- Writes a text unless there is none. -/
def Page.writeSome (p : Page) (s : String) : Page := if s == "" then p else p.write s

/-- Does the line not end at this break? -/
def Page.fits (p : Page) (b : Break) (size : Nat) : Bool :=
  b.never ||
    match p.frames with
    | .fits :: _ => true
    | .broken _ true :: _ => false
    | _ => (size : Int) ≤ p.space

def Page.line (p : Page) (b : Break) (size : Nat) : Page :=
  if p.fits b size then
    { p with
      pending := p.pending + b.blank
      written := p.written ++ b.unbroken
      space := p.space - b.blank - byteLength b.unbroken.toList }
  else
    let p := p.writeSome b.before
    let indent := p.indent + b.offset
    let p : Page :=
      { p with
        written := p.written ++ "\n"
        pending := indent.toNat
        space := max (lineWidth - indent) leastSpace }
    if b.after == "" then p
    else { p.write b.after with space := p.space - byteLength b.after.toList }

def Page.step (p : Page) : Piece × Nat → Page
  | (.text s, size) => { p.write s with space := p.space - size }
  | (.line b, size) => p.line b size
  | (.opening offset consistent, size) =>
      if (size : Int) > p.space then
        { p with
          frames := .broken p.indent consistent :: p.frames
          indent := p.indent + offset }
      else { p with frames := .fits :: p.frames }
  | (.closing, _) =>
      match p.frames with
      | .broken outer _ :: frames => { p with frames, indent := outer }
      | .fits :: frames => { p with frames }
      | [] => p
  | (.mark, _) => p
  | (.force, _) => p.write ""

def render (cs : Commands) : String := ((measure (settle cs)).foldl Page.step {}).written

/-! ## Building layouts -/

def indentation : Int := 4

def text (s : String) : Commands := [.text s]

/-- A consistent box up to a closing command. -/
def cbox (offset : Int) : Commands := [.opening offset true]

/-- An inconsistent box up to a closing command. -/
def ibox (offset : Int) : Commands := [.opening offset false]

def close : Commands := [.closing]

/-- A break without a blank. -/
def zeroBreak : Commands := [.line {}]

/-- A break that is a blank otherwise. -/
def space : Commands := [.line { blank := 1 }]

/-- A break that always ends the line. -/
def hardBreak : Commands := [.line { blank := unlimited }]

/-- A line end, if anything follows in the box. -/
def hardBreakIfMore : Commands := [.line { blank := unlimited, needsMore := true }]

/-- A blank or a line end, if anything follows in the box. -/
def spaceIfMore : Commands := [.line { blank := 1, needsMore := true }]

/-- The end of what a break before it may hold. -/
def neverBreak : Commands := [.line { never := true }]

/-- Moves the last break back to the level of the box's surroundings. -/
def outdent : Commands := [.shift (-indentation)]

/-- A comma behind an element; behind the last one only where the line ends. -/
def trailingComma (last : Bool) : Commands :=
  if last then [.line { before := "," }] else text "," ++ space

/-- The same, with a blank where the line does not end. -/
def trailingCommaOrSpace (last : Bool) : Commands :=
  if last then [.line { blank := 1, before := "," }] else text "," ++ space

/-- Elements, each with whether it is the last one. -/
def withLast {α : Type} : List α → List (α × Bool)
  | [] => []
  | [x] => [(x, true)]
  | x :: xs => (x, false) :: withLast xs

/-- Elements with a text between each two. -/
def separated (separator : Commands) (xs : List Commands) : Commands :=
  ((withLast xs).map fun (x, last) => if last then x else x ++ separator).flatten

/-- Elements, each with a trailing comma. -/
def commaList (xs : List Commands) : Commands :=
  ((withLast xs).map fun (x, last) => x ++ trailingComma last).flatten

end LogInterface.Layout
