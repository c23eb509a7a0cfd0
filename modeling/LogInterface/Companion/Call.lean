/-
# Companion.Call -- calling what was generated

What the methods of a companion do when they are called.  A method of the
extension trait asks the logger first; only if the level is wanted does it capture
its arguments in a view and log a record with it.  A method of the wrapper passes
its arguments on to the method of the extension trait, with the logger behind a
reference.

Names are bound as in the generated text: each parameter to the argument at its
place, each field of a view to the captured argument of its name.
-/
import LogInterface.Companion.Basic
import LogInterface.Logging.Logger

namespace LogInterface

set_option autoImplicit false

/-- An argument of a call and its number. -/
structure Passed where
  number : Nat
  argument : Argument

/-- What names stand for in the body of a method. -/
abbrev Scope := List (String × Passed)

def Scope.find? (scope : Scope) (name : Ident) : Option Passed :=
  (List.find? (fun binding => binding.1 == name.name) scope).map Prod.snd

/-- The parameters of a signature, bound to arguments by their places. -/
def Scope.ofCall (s : Signature) (arguments : List Passed) : Scope :=
  ((parametersFrom 0 s.inputs).map Parameter.field).zip arguments

def Passed.numbered (arguments : List Argument) : List Passed :=
  arguments.zipIdx.map fun (a, i) => ⟨i, a⟩

namespace MethodModule

def eventId (m : MethodModule) : EventId := ⟨m.event, m.eventName⟩

def fieldSet (m : MethodModule) (view : List Passed) : FieldSet :=
  { length := m.fields.length
    slots := (m.fields.zip view).map fun (i, p) =>
      some ⟨i.name, p.argument.value, some p.number⟩ }

/-- A step of the message, written from a view. -/
def part (m : MethodModule) (view : List Passed) : Write → MessagePart
  | .text s => .text s
  | .field name =>
      match Scope.find? ((m.fields.map Ident.name).zip view) name with
      | some p => .value p.argument.value (some p.number)
      | none => .text ""

def message (m : MethodModule) (view : List Passed) : Message := m.writes.map (m.part view)

def record (m : MethodModule) (level : Level) (view : List Passed) : Record :=
  { level, event := m.eventId, fields := m.fieldSet view, message := m.message view }

end MethodModule

namespace Companion

variable {σ : Type}

def module? (c : Companion) (name : Ident) : Option MethodModule :=
  c.modules.find? (·.name.name == name.name)

/-- The events in the order in which they are listed. -/
def manifest (c : Companion) : List EventId :=
  (c.events.filterMap c.module?).map MethodModule.eventId

/-- Calls a method of the extension trait on a logger. -/
def callExtension (c : Companion) (m : ExtensionMethod) (l : Logger σ) (state : σ)
    (arguments : List Passed) : Logged σ :=
  if l.isEnabled state m.level then
    let view := m.captures.filterMap (Scope.ofCall m.signature arguments).find?
    match c.module? m.module with
    | some module => l.log state (module.record m.level view)
    | none => ⟨state, []⟩
  else ⟨state, []⟩

/-- The method of the extension trait with a name. -/
def extension? (c : Companion) (name : Ident) : Option ExtensionMethod :=
  c.extensions.find? (·.signature.name.name == name.name)

/-- Calls a method of the wrapper around a logger. -/
def callWrapper (c : Companion) (m : WrapperMethod) (l : Logger σ) (state : σ)
    (arguments : List Passed) : Logged σ :=
  let passed := m.arguments.filterMap (Scope.ofCall m.signature arguments).find?
  match c.extension? m.target with
  | some target => c.callExtension target (l.through .ref) state passed
  | none => ⟨state, []⟩

def wrapper? (c : Companion) (name : Ident) : Option WrapperMethod :=
  c.wrappers.find? (·.signature.name.name == name.name)

/-- How a method is called. -/
inductive CallForm where
  /-- On the logger. -/
  | direct
  /-- On the wrapper around it. -/
  | wrapped
  deriving DecidableEq, Repr

/-- Calls a method by its name, if there is one. -/
def call? (c : Companion) (form : CallForm) (name : Ident) (l : Logger σ) (state : σ)
    (arguments : List Argument) : Option (Logged σ) :=
  match form with
  | .direct =>
      (c.extension? name).map fun m => c.callExtension m l state (Passed.numbered arguments)
  | .wrapped => (c.wrapper? name).map fun m => c.callWrapper m l state (Passed.numbered arguments)

end Companion

end LogInterface
