/-
# Interface.Descriptor -- a logging interface

An `Interface` describes one trait as a logging interface: its log methods and
everything about it that a rule may forbid.  `LogMethod.bind` ties each
placeholder of a template to the parameter of that name; a name that no
parameter has stays unbound.

`TraitDecl.describe` builds the description.  A method without usable arguments
or with a malformed template is left out of it and reported.
-/
import LogInterface.Interface.Arguments
import LogInterface.Interface.Naming
import LogInterface.Interface.Violation
import LogInterface.Template.Basic

namespace LogInterface

set_option autoImplicit false

/-! ## Descriptions -/

structure Parameter where
  name : Ident
  type : Tree
  /-- Its number among all parameters but the receiver. -/
  position : Nat

/-- The name of the field that a parameter becomes. -/
def Parameter.field (p : Parameter) : String := p.name.name

structure LogMethod where
  name : Ident
  event : EventNumber
  level : Level
  message : StringLiteral
  segments : List Segment
  /-- For each placeholder the index of its parameter. -/
  bindings : List (Option Nat)
  parameters : List Parameter
  signature : Signature
  docs : List Attribute
  /-- Where a default body starts. -/
  body : Option Place

/-- A placeholder and the parameter that it is bound to. -/
def LogMethod.pairs (m : LogMethod) : List (String × Option Parameter) :=
  ((Template.names m.segments).zip m.bindings).map fun (name, binding) =>
    (name, binding.bind fun i => m.parameters[i]?)

/-- Does a placeholder name this parameter? -/
def LogMethod.references (m : LogMethod) (index : Nat) : Bool := m.bindings.contains (some index)

/-- A trait as a logging interface. -/
structure Interface where
  name : Ident
  companion : Ident
  visibility : Tree
  /-- The path of the runtime crate. -/
  runtime : Tree
  generics : Generics
  clause : Option Tree
  supertraits : List Place
  /-- Where `unsafe` and `auto` stand. -/
  qualifiers : List Place
  /-- Is it declared inside another item? -/
  nested : Bool
  /-- How often it is annotated. -/
  triggers : Nat
  /-- Where the items are that are no methods. -/
  foreign : List Place
  methods : List LogMethod

/-- Where and how a trait was found. -/
structure Context where
  /-- The arguments of its annotation. -/
  arguments : List Token
  nested : Bool
  triggers : Nat
  /-- The path of the runtime crate, unless the arguments name another. -/
  runtime : Tree

/-! ## Attributes -/

/-- Does the path of the attribute end in this name? -/
def Attribute.endsIn (a : Attribute) (name : String) : Bool :=
  match a.path.getLast? with
  | some i => i.text == name
  | none => false

/-- Does the attribute make a trait a logging interface? -/
def Attribute.isTrigger (a : Attribute) : Bool := a.endsIn "logger_extensions"

/-- Does the attribute make a method a log method? -/
def Attribute.isMessage (a : Attribute) : Bool := a.endsIn "logger_message"

def Attribute.isDoc (a : Attribute) : Bool :=
  !a.rooted && a.path.length == 1 && a.endsIn "doc"

def Attribute.arguments (a : Attribute) : List Token :=
  match a.input with
  | .nothing => []
  | .list _ content _ _ => content
  | .value e => e.tokens

/-- The trait without the attributes that only the generator reads. -/
def TraitDecl.stripped (t : TraitDecl) : TraitDecl :=
  { t with
    attributes := t.attributes.filter (!·.isTrigger)
    items := t.items.map fun item =>
      match item with
      | .method m => .method { m with attributes := m.attributes.filter (!·.isMessage) }
      | .other o => .other o }

/-! ## Binding -/

/-- Numbers the parameters that are plain identifiers, from a given number on. -/
def parametersFrom : (position : Nat) → List Input → List Parameter
  | _, [] => []
  | position, .receiver _ :: is => parametersFrom position is
  | position, .typed _ (.name i) type :: is =>
      ⟨i, type, position⟩ :: parametersFrom (position + 1) is
  | position, .typed _ (.other _) _ :: is => parametersFrom (position + 1) is

/-- The index of the first parameter whose field has this name. -/
def bindName (parameters : List Parameter) (name : String) : Option Nat :=
  parameters.findIdx? (·.field == name)

/-- The log method that a method with these arguments and segments is. -/
def LogMethod.bind (m : Method) (args : MessageArguments) (segments : List Segment) : LogMethod :=
  let parameters := parametersFrom 0 m.signature.inputs
  { name := m.signature.name
    event := args.event
    level := args.level
    message := args.message
    segments
    bindings := (Template.names segments).map (bindName parameters)
    parameters
    signature := m.signature
    docs := m.attributes.filter Attribute.isDoc
    body := m.body.map Tree.place }

/-! ## Building -/

def methodViolation (kind : ViolationKind) (method : Ident) (place : Place) (message : String) :
    Violation :=
  { kind, method := some method.text, message, place }

def Ident.quoted (i : Ident) : String := LogInterface.quoted i.text

/-- The log method that a method describes, or why it describes none. -/
def Method.describe (m : Method) : Except Violation LogMethod := do
  let name := m.signature.name
  let chosen ←
    match m.attributes.filter Attribute.isMessage with
    | [] =>
        throw { methodViolation .invalidMethodShape name name.place
            ("method " ++ name.quoted ++ " has no `#[logger_message(...)]` attribute") with
          help := some "annotate it with `#[logger_message(event_id, Level, \"message\")]`" }
    | [a] => pure a
    | _ :: second :: _ =>
        throw (methodViolation .invalidMethodShape name second.place
          ("method " ++ name.quoted ++ " carries more than one `#[logger_message]` attribute"))
  match MessageArguments.ofTokens chosen.arguments with
  | .error e => throw { Violation.ofParseError .invalidAttribute e with method := some name.text }
  | .ok args =>
      match Template.parse args.message.value with
      | .error e =>
          throw { methodViolation .syntaxError name args.message.place
              ("message template of " ++ name.quoted ++ ": " ++ e.message) with
            detail := some (e.snippet args.message.value)
            help := some TemplateError.suggestion }
      | .ok segments => return LogMethod.bind m args segments

/-- What the items of a trait describe: log methods, other items, violations. -/
structure Described where
  methods : List LogMethod := []
  foreign : List Place := []
  violations : Report := []

/-- Describes the items of a trait in their order. -/
def describeItems : List TraitItem → Described
  | [] => {}
  | .method m :: items =>
      let rest := describeItems items
      match m.describe with
      | .ok method => { rest with methods := method :: rest.methods }
      | .error v => { rest with violations := v :: rest.violations }
  | .other t :: items =>
      let rest := describeItems items
      { rest with foreign := t.place :: rest.foreign }

/-- The name of the companion, and what is wrong with the one that was asked for. -/
def companionOf (interface : Ident) (asked : Option StringLiteral) : Ident × Report :=
  match asked with
  | none => (Naming.companion interface, [])
  | some l =>
      match withinLiteral l fun _ => Parser.name with
      | .ok i => (i, [])
      | .error _ =>
          (Naming.companion interface,
            [{ kind := .invalidAttribute, place := l.place
               message := quoted l.value ++ " is not a valid type name" }])

/-- The arguments of the annotation, and what is wrong with them. -/
def Context.extensionArguments (cx : Context) : ExtensionArguments × Report :=
  match ExtensionArguments.ofTokens cx.arguments with
  | .ok args => (args, [])
  | .error e => ({}, [Violation.ofParseError .invalidAttribute e])

/-- The interface that a trait describes, and what could not be described. -/
def TraitDecl.describe (t : TraitDecl) (cx : Context) : Interface × Report :=
  let (args, badArguments) := cx.extensionArguments
  let (companion, badName) := companionOf t.name args.name
  let items := describeItems t.items
  let interface : Interface :=
    { name := t.name
      companion
      visibility := t.visibility
      runtime := args.runtime.getD cx.runtime
      generics := t.generics
      clause := t.clause
      supertraits := t.supertraits.map Tree.place
      qualifiers := t.unsafety.toList ++ t.auto.toList
      nested := cx.nested
      triggers := cx.triggers
      foreign := items.foreign
      methods := items.methods }
  (interface,
    (badArguments ++ badName ++ items.violations).map fun v => { v with interface := t.name.text })

end LogInterface
