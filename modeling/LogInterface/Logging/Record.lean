/-
# Logging.Record -- one event as a sink sees it

A `Record` carries the level and the event, the structured fields and the message.
Nothing of it is text yet: `FieldSet.text` and `Message.render` write the fields
and the message when a sink asks for them.

An argument of a call is converted each time its field is read and each time the
message writes it.  `conversions` lists the arguments that are converted, by their
numbers, in the order in which it happens.
-/
import LogInterface.Level
import LogInterface.Value.Field

namespace LogInterface

open LogInterface.Text LogInterface.Format

set_option autoImplicit false

/-! ## Events -/

/-- The identity of an event: a number and the name of the method that logs it. -/
structure EventId where
  number : Int
  name : String
  deriving DecidableEq, Repr

namespace EventId

/-- The name, and the number between parentheses. -/
def text (e : EventId) : String := e.name ++ "(" ++ Int.repr e.number ++ ")"

/-- The parts of an event for a reader of debugging output. -/
def debug (spec : Spec) (e : EventId) : String :=
  debugStruct spec.alternate false "EventId"
    [("id", spec.integer e.number), ("name", debugText e.name)]

/-- Is the first event not behind the second one?  The number decides, then the name. -/
def notAfter (a b : EventId) : Bool :=
  a.number < b.number || (a.number = b.number && !(b.name < a.name))

/-- Events by their numbers and names. -/
def sorted (es : List EventId) : List EventId := es.mergeSort notAfter

end EventId

/-! ## Fields -/

/-- A structured field.  `argument` is the number of the argument that is converted
when it is read. -/
structure Field where
  name : String
  value : FieldValue
  argument : Option Nat := none

/-- A field for a reader of debugging output. -/
def Field.debug (spec : Spec) (f : Field) : String :=
  debugStruct spec.alternate false "Field"
    [("name", debugText f.name), ("value", f.value.debug spec)]

/-- Fields by their index, and how many there are said to be.  A slot may be empty,
and what is behind the last slot always is. -/
structure FieldSet where
  length : Nat
  slots : List (Option Field)

/-- The fields in front of the first empty slot. -/
def filledSlots : List (Option Field) → List Field
  | some f :: rest => f :: filledSlots rest
  | _ => []

namespace FieldSet

def empty : FieldSet := ⟨0, []⟩

def field (fs : FieldSet) (index : Nat) : Option Field := fs.slots[index]?.join

def isEmpty (fs : FieldSet) : Bool := fs.length = 0

/-- The fields in their order, up to the first empty slot. -/
def toList (fs : FieldSet) : List Field := filledSlots fs.slots

/-- The value of the first field with a name, among as many as there are said to be. -/
def get? (fs : FieldSet) (name : String) : Option FieldValue :=
  (((List.range fs.length).filterMap fs.field).find? (·.name == name)).map Field.value

/-- The fields as names and values with blanks between them. -/
def text (fs : FieldSet) : String :=
  " ".intercalate (fs.toList.map fun f => f.name ++ "=" ++ f.value.debug .plain)

/-- The arguments that reading all fields converts. -/
def conversions (fs : FieldSet) : List Nat := fs.toList.filterMap Field.argument

end FieldSet

/-- A walk over the fields of a set. -/
structure FieldWalk where
  fields : FieldSet
  index : Nat := 0

namespace FieldWalk

def next (w : FieldWalk) : Option Field × FieldWalk :=
  match w.fields.field w.index with
  | some f => (some f, { w with index := w.index + 1 })
  | none => (none, w)

/-- How many fields are said to follow. -/
def remaining (w : FieldWalk) : Nat := w.fields.length - w.index

/-- What is said to follow before each step, as many as there are and one more. -/
def hints : (steps : Nat) → FieldWalk → List Nat
  | 0, _ => []
  | steps + 1, w =>
      w.remaining ::
        match w.next with
        | (some _, w) => hints steps w
        | (none, _) => []

end FieldWalk

/-- What is said to follow before each step over the fields. -/
def FieldSet.hints (fs : FieldSet) : List Nat := FieldWalk.hints (fs.slots.length + 1) ⟨fs, 0⟩

/-! ## Messages -/

/-- A part of a message: a text that is written as it stands, or a value that
follows the asked form. -/
inductive MessagePart where
  | text (s : String)
  | value (v : FieldValue) (argument : Option Nat)

/-- A message. -/
abbrev Message := List MessagePart

def MessagePart.render (spec : Spec) : MessagePart → String
  | .text s => s
  | .value v _ => v.display spec

namespace Message

def ofText (s : String) : Message := [.value (.str s) none]

def render (spec : Spec) (m : Message) : String := String.join (m.map (MessagePart.render spec))

/-- The arguments that writing the message converts. -/
def conversions (m : Message) : List Nat :=
  m.filterMap fun part =>
    match part with
    | .value _ argument => argument
    | .text _ => none

end Message

/-! ## Records -/

/-- One event as a sink sees it. -/
structure Record where
  level : Level
  event : EventId
  fields : FieldSet
  message : Message

def Record.render (r : Record) : String := Message.render .plain r.message

/-- A record for a reader of debugging output.  It does not show the message. -/
def Record.debug (spec : Spec) (r : Record) : String :=
  debugStruct spec.alternate true "Record"
    [("level", r.level.name), ("event_id", r.event.debug spec),
     ("fields", debugList spec.alternate (r.fields.toList.map (Field.debug spec)))]

end LogInterface
