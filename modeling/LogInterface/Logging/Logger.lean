/-
# Logging.Logger -- sinks

A `Logger` says which levels it wants and takes records.  Its state changes with
what it is given, and it tells which arguments it converted on the way.

* `Logger.through` is the same logger behind a pointer.
* `discard` wants nothing; `formatting` wants everything and writes it with a form.
* `Capture` keeps what it is given for a test to look at.
-/
import LogInterface.Logging.Record
import LogInterface.Value.Argument

namespace LogInterface

open LogInterface.Format

set_option autoImplicit false

/-- What logging does: the new state, and the arguments that were converted. -/
structure Logged (σ : Type) where
  state : σ
  conversions : List Nat

/-- A sink with a state. -/
structure Logger (σ : Type) where
  isEnabled : σ → Level → Bool
  log : σ → Record → Logged σ

namespace Logger

variable {σ : Type}

/-- Logs a record if its level is wanted.  Answers whether it was. -/
def logIf (l : Logger σ) (state : σ) (r : Record) : Bool × Logged σ :=
  if l.isEnabled state r.level then (true, l.log state r) else (false, ⟨state, []⟩)

def through (_ : Pointer) (l : Logger σ) : Logger σ :=
  { isEnabled := fun state level => l.isEnabled state level
    log := fun state r => l.log state r }

/-- The logger behind some pointers, the outermost first. -/
def throughAll (ps : List Pointer) (l : Logger σ) : Logger σ := ps.foldr through l

end Logger

/-! ## Simple sinks -/

/-- Wants nothing and keeps nothing. -/
def discard : Logger Unit :=
  { isEnabled := fun _ _ => false
    log := fun _ _ => ⟨(), []⟩ }

/-- What a formatting sink writes of one record. -/
structure Written where
  text : String
  fields : String
  debug : String
  deriving DecidableEq, Repr

/-- Wants everything, and writes the message with a form, the fields, and the
record for a reader of debugging output. -/
def formatting (spec : Spec) : Logger (List Written) :=
  { isEnabled := fun _ _ => true
    log := fun written r =>
      ⟨written ++ [⟨Message.render spec r.message, r.fields.text, r.debug .plain⟩],
        Message.conversions r.message ++ r.fields.conversions ++ r.fields.conversions⟩ }

/-! ## Capturing -/

structure CapturedRecord where
  level : Level
  event : EventId
  fields : List (String × String)
  /-- The message, unless only the structure is kept. -/
  message : Option String
  deriving DecidableEq, Repr

/-- The text of the first field with a name. -/
def CapturedRecord.field? (r : CapturedRecord) (name : String) : Option String :=
  (r.fields.find? (·.1 == name)).map Prod.snd

/-- A sink that keeps records. -/
structure Capture where
  /-- The least level that is wanted; `none` if no level is. -/
  least : Option Level := some .trace
  /-- Is the message written? -/
  renders : Bool := true
  records : List CapturedRecord := []
  deriving DecidableEq, Repr

namespace Capture

/-- Wants every level. -/
def all : Capture := {}

/-- Wants a level and those above it. -/
def atLeast (level : Level) : Capture := { least := some level }

def disabled : Capture := { least := none }

/-- Keeps the fields and never writes the message. -/
def structured : Capture := { renders := false }

def isEnabled (c : Capture) (level : Level) : Bool :=
  match c.least with
  | some least => least.rank ≤ level.rank
  | none => false

def captured (c : Capture) (r : Record) : CapturedRecord :=
  { level := r.level
    event := r.event
    fields := r.fields.toList.map fun f => (f.name, f.value.text)
    message := if c.renders then some r.render else none }

def log (c : Capture) (r : Record) : Logged Capture :=
  { state := { c with records := c.records ++ [c.captured r] }
    conversions := r.fields.conversions
      ++ if c.renders then Message.conversions r.message else [] }

/-- How many records are kept. -/
def length (c : Capture) : Nat := c.records.length

def isEmpty (c : Capture) : Bool := c.records.isEmpty

/-- The records, which are kept no longer. -/
def take (c : Capture) : List CapturedRecord × Capture := (c.records, { c with records := [] })

def logger : Logger Capture := ⟨isEnabled, log⟩

end Capture

end LogInterface
