/-
# Template.Basic -- message templates

A message template is text with named holes.  `{name}` is a placeholder, a
doubled brace stands for one, and a closing brace alone stands for itself.

`parse` answers the segments in their order: no two texts side by side, no
empty text unless the template is empty, and with each placeholder the byte
offset of its brace.  The one error is a placeholder that is never closed.
-/
import LogInterface.Text.Excerpt

namespace LogInterface

open LogInterface.Text

set_option autoImplicit false

/-- One piece of a message template. -/
inductive Segment where
  /-- Text that is written as it is. -/
  | literal (text : String)
  /-- A hole, and the byte offset of its opening brace. -/
  | placeholder (name : String) (position : Nat)
  deriving DecidableEq, Repr

def Segment.name? : Segment → Option String
  | .literal _ => none
  | .placeholder name _ => some name

/-- A placeholder that is never closed. -/
structure TemplateError where
  /-- Where the template ends. -/
  position : Nat
  /-- Where the placeholder starts. -/
  openedAt : Nat
  deriving DecidableEq, Repr

namespace Template

def opening : Char := '\x7b'

def closing : Char := '\x7d'

/-- A text segment before others, unless it is empty.  The characters are
given last first. -/
def withText (text : List Char) (rest : List Segment) : List Segment :=
  if text.isEmpty then rest else .literal (String.ofList text.reverse) :: rest

mutual

/-- Reads from outside a placeholder.  `text` holds the characters since the
last one, last first, and `offset` is the bytes that were read. -/
def textFrom (text : List Char) (offset : Nat) : List Char → Except TemplateError (List Segment)
  | [] => .ok (withText text [])
  | [c] =>
      if c = opening then .error ⟨offset + c.utf8Size, offset⟩
      else .ok (withText (c :: text) [])
  | c :: d :: cs =>
      if c = opening then
        if d = opening then textFrom (opening :: text) (offset + 2) cs
        else holeFrom text offset [] (offset + 1) (d :: cs)
      else if c = closing then
        if d = closing then textFrom (closing :: text) (offset + 2) cs
        else textFrom (closing :: text) (offset + 1) (d :: cs)
      else textFrom (c :: text) (offset + c.utf8Size) (d :: cs)

/-- Reads from inside the placeholder that was opened at `openedAt`.  `name`
holds its characters, last first. -/
def holeFrom (text : List Char) (openedAt : Nat) (name : List Char) (offset : Nat) :
    List Char → Except TemplateError (List Segment)
  | [] => .error ⟨offset, openedAt⟩
  | c :: cs =>
      if c = closing then do
        let rest ← textFrom [] (offset + 1) cs
        return withText text (.placeholder (String.ofList name.reverse) openedAt :: rest)
      else holeFrom text openedAt (c :: name) (offset + c.utf8Size) cs

end

def parse (template : String) : Except TemplateError (List Segment) := do
  match ← textFrom [] 0 template.toList with
  | [] => return [.literal ""]
  | segments => return segments

/-- The names of the placeholders, in their order. -/
def names (segments : List Segment) : List String := segments.filterMap Segment.name?

end Template

/-! ## Errors -/

namespace TemplateError

def message (e : TemplateError) : String :=
  "unterminated placeholder: `\x7b` at offset " ++ Nat.repr e.openedAt ++ " is never closed"

def suggestion : String :=
  "add a closing `\x7d` to the placeholder, or write `\x7b\x7b` for a literal brace"

/-- The error against the text of the template. -/
def report (e : TemplateError) (template : String) : ErrorReport :=
  { ErrorReport.atOffset "unterminated placeholder" template e.openedAt with
    filename := "message template"
    caption := "placeholder opened here" }

/-- The whole report, pointing at the opening brace. -/
def format (e : TemplateError) (template : String) : String :=
  { e.report template with help := some suggestion : ErrorReport }.text

/-- Only the line of the template, with a caret under the opening brace. -/
def snippet (e : TemplateError) (template : String) : String := (e.report template).excerpt

end TemplateError

end LogInterface
