/-
# Companion.Basic -- what is generated for an interface

For an accepted interface a `Companion` is generated: for each method a module
with its event and its view, an extension trait for every logger, a wrapper type
that implements the interface itself, and the list of events.

A view holds the arguments of one call as fields in the order of the parameters,
and writes the message: its `writes` are the texts and the fields of the template
in their order.
-/
import LogInterface.Interface.Validation

namespace LogInterface

set_option autoImplicit false

/-- One step of writing a message. -/
inductive Write where
  /-- Writes a text. -/
  | text (s : String)
  /-- Writes the value of a field. -/
  | field (name : Ident)
  deriving DecidableEq, Repr

/-- The module of one method: its event and its view. -/
structure MethodModule where
  name : Ident
  /-- The number of the event. -/
  event : Int
  /-- The fields of the view, in the order of the parameters. -/
  fields : List Ident
  writes : List Write
  deriving DecidableEq, Repr

def MethodModule.eventName (m : MethodModule) : String := m.name.name

structure ExtensionMethod where
  docs : List Attribute
  signature : Signature
  event : Int
  level : Level
  /-- The module that holds its event and its view. -/
  module : Ident
  /-- The arguments that the view captures, in the order of its fields. -/
  captures : List Ident

structure WrapperMethod where
  signature : Signature
  /-- The extension method that it calls. -/
  target : Ident
  /-- The arguments that it passes on. -/
  arguments : List Ident

/-- Everything that is generated for an interface. -/
structure Companion where
  interface : Ident
  name : Ident
  visibility : Tree
  /-- The path of the runtime crate. -/
  runtime : Tree
  modules : List MethodModule
  extensions : List ExtensionMethod
  wrappers : List WrapperMethod
  /-- The modules whose events are listed, in the order of declaration. -/
  events : List Ident

/-! ## Generation -/

/-- The step that a placeholder is; one without a parameter is written as it stands. -/
def Write.ofHole (fields : List Ident) (name : String) (binding : Option Nat) : Write :=
  match binding.bind fun index => fields[index]? with
  | some i => .field i
  | none => .text ("\x7b" ++ name ++ "\x7d")

def writesOf (fields : List Ident) : List Segment → (bindings : List (Option Nat)) → List Write
  | [], _ => []
  | .literal text :: segments, bindings =>
      if text == "" then writesOf fields segments bindings
      else .text text :: writesOf fields segments bindings
  | .placeholder name _ :: segments, [] =>
      .ofHole fields name none :: writesOf fields segments []
  | .placeholder name _ :: segments, binding :: bindings =>
      .ofHole fields name binding :: writesOf fields segments bindings

/-- A signature without the attributes on its inputs. -/
def Signature.plain (s : Signature) : Signature :=
  { s with
    inputs := s.inputs.map fun i =>
      match i with
      | .receiver r => .receiver { r with attributes := [] }
      | .typed _ pattern type => .typed [] pattern type }

namespace LogMethod

def parameterNames (m : LogMethod) : List Ident := m.parameters.map Parameter.name

def module (m : LogMethod) : MethodModule :=
  { name := m.name
    event := m.event.value
    fields := m.parameterNames
    writes := writesOf m.parameterNames m.segments m.bindings }

def extension (m : LogMethod) : ExtensionMethod :=
  { docs := m.docs
    signature := m.signature.plain
    event := m.event.value
    level := m.level
    module := m.name
    captures := m.parameterNames }

def wrapper (m : LogMethod) : WrapperMethod :=
  { signature := m.signature.plain
    target := m.name
    arguments := m.parameterNames }

end LogMethod

def Interface.companionItems (d : Interface) : Companion :=
  { interface := d.name
    name := d.companion
    visibility := d.visibility
    runtime := d.runtime
    modules := d.methods.map LogMethod.module
    extensions := d.methods.map LogMethod.extension
    wrappers := d.methods.map LogMethod.wrapper
    events := d.methods.map LogMethod.name }

end LogInterface
