/-
# Interface.Validation -- the rules for logging interfaces

`Interface.validate` checks a description against every rule and answers all
violations: those of the trait, then those of each method in turn -- its
signature, then its unknown placeholders -- and last the event ids that several
methods declare.

`Interface.notes` lists the parameters that no placeholder names.
-/
import LogInterface.Interface.Descriptor
import LogInterface.Source.Mention

namespace LogInterface

open LogInterface.Text

set_option autoImplicit false

/-! ## The trait -/

def shapeViolation (place : Place) (message : String) : Violation :=
  { kind := .invalidInterfaceShape, message, place }

/-- One violation if a condition holds. -/
def violationIf (condition : Bool) (v : Violation) : Report := if condition then [v] else []

namespace Interface

/-- Does a generated type have the name of the trait? -/
def collides (d : Interface) : Bool :=
  d.companion.text == d.name.text || (Naming.extensionTrait d.companion).text == d.name.text

/-- The rules for the trait itself. -/
def shapeViolations (d : Interface) : Report :=
  let name := d.name.quoted
  (match d.generics.params with
    | [] => []
    | p :: _ =>
        [shapeViolation p.tree.place ("logging trait " ++ name ++ " must not be generic")])
  ++ (match d.clause with
    | none => []
    | some c =>
        [shapeViolation c.place ("logging trait " ++ name ++ " must not have a where clause")])
  ++ violationIf d.nested
      { shapeViolation d.name.place
          ("logging trait " ++ name ++ " must not be nested in another item") with
        help := some "declare the trait at the top level of the file" }
  ++ violationIf (d.triggers > 1)
      (shapeViolation d.name.place
        ("`#[logger_extensions]` is applied " ++ Nat.repr d.triggers ++ " times to " ++ name))
  ++ d.supertraits.map (fun p =>
      shapeViolation p ("logging trait " ++ name ++ " must not have supertraits"))
  ++ d.qualifiers.map (fun p =>
      shapeViolation p
        ("logging trait " ++ name ++ " must be a plain trait, not `unsafe` or `auto`"))
  ++ d.foreign.map (fun p =>
      { shapeViolation p ("logging trait " ++ name ++ " may only declare log methods") with
        help := some "move associated types, constants and macros to another trait" })
  ++ violationIf d.collides
      (shapeViolation d.companion.place
        ("generated type name " ++ d.companion.quoted ++ " collides with the trait " ++ name))

end Interface

/-! ## Signatures -/

/-- Is the type the empty tuple? -/
def Tree.isUnit : Tree → Bool
  | .node .tupleType [.group _ _ _ []] => true
  | _ => false

/-- Is the receiver a shared reference without a type of its own? -/
def Receiver.isShared (r : Receiver) : Bool :=
  r.reference.isSome && r.mutability.isNone && r.type.isNone

def Receiver.start (r : Receiver) : Place :=
  (r.tokens.head?.map Token.place).getD .nowhere

/-- The receiver of a signature: its first input, if it is one. -/
def Signature.receiver? (s : Signature) : Option Receiver :=
  match s.inputs with
  | .receiver r :: _ => some r
  | _ => none

def Signature.qualifiers (s : Signature) : List (Place × String) :=
  s.constness.toList.map (·, "const") ++ s.asyncness.toList.map (·, "async")
    ++ s.unsafety.toList.map (·, "unsafe") ++ s.abi.toList.map (fun t => (t.place, "extern"))

def methodShape (name : Ident) (place : Place) (message : String) : Violation :=
  methodViolation .invalidMethodShape name place message

/-- The rules for the generic parameters, the clause and the result. -/
def headViolations (name : Ident) (s : Signature) : Report :=
  (match s.generics.params.find? (·.kind ≠ .lifetime) with
    | none => []
    | some p =>
        [methodShape name p.tree.place ("log method " ++ name.quoted ++ " must not be generic")])
  ++ (match s.clause with
    | none => []
    | some c =>
        [methodShape name c.place
          ("log method " ++ name.quoted ++ " must not have a where clause")])
  ++ (match s.output with
    | none => []
    | some t =>
        violationIf (!t.isUnit)
          (methodShape name t.place ("log method " ++ name.quoted ++ " must return `()`")))

def receiverViolations (name : Ident) (s : Signature) : Report :=
  let message := "log method " ++ name.quoted ++ " must take `&self`"
  match s.receiver? with
  | none => [methodShape name name.place message]
  | some r => violationIf (!r.isShared) (methodShape name r.start message)

/-- The rules for qualifiers and variadic inputs. -/
def qualifierViolations (name : Ident) (s : Signature) : Report :=
  s.qualifiers.map (fun (place, qualifier) =>
    methodShape name place ("log method " ++ name.quoted ++ " must not be " ++ quoted qualifier))
  ++ (match s.variadic with
    | none => []
    | some t =>
        [methodShape name t.place ("log method " ++ name.quoted ++ " must not be variadic")])

def patternViolations (name : Ident) : Pattern → Report
  | .name i =>
      violationIf ("__".toList.isPrefixOf i.text.toList)
        { methodShape name i.place
            ("parameter " ++ i.quoted ++ " of " ++ name.quoted ++ " uses the reserved `__` prefix")
          with subject := some i.text }
  | .other t =>
      [methodShape name t.place
        ("parameters of log method " ++ name.quoted ++ " must be plain identifiers")]

def typeViolations (name : Ident) (t : Tree) : Report :=
  (match t.implMention? with
    | none => []
    | some p =>
        [{ methodShape name p
            ("log method " ++ name.quoted ++ " must not be generic (`impl Trait` argument)") with
          help := some "take a concrete type or a `&dyn Trait` instead" }])
  ++ (match t.selfMention? with
    | none => []
    | some p =>
        [{ methodShape name p
            ("parameters of log method " ++ name.quoted ++ " must not mention `Self`") with
          help := some "`Self` names a different type in each generated implementation" }])

def inputViolations (name : Ident) : Input → Report
  | .receiver _ => []
  | .typed _ pattern type => patternViolations name pattern ++ typeViolations name type

/-- The rules for the signature of a log method. -/
def signatureViolations (into : Ident) (name : Ident) (s : Signature) (body : Option Place) :
    Report :=
  violationIf (name.name == into.text)
    { methodShape name name.place
        ("log method " ++ name.quoted ++ " collides with the generated " ++ into.quoted) with
      help := some "rename the method or the generated type" }
  ++ headViolations name s ++ receiverViolations name s ++ qualifierViolations name s
  ++ (match body with
    | none => []
    | some p =>
        [{ methodShape name p ("log method " ++ name.quoted ++ " must not have a body") with
          help := some "the body is generated; declare the method with a trailing `;`" }])
  ++ s.inputs.flatMap (inputViolations name)

/-! ## Placeholders -/

def nameList (names : List String) : String :=
  match (names.map quoted).reverse with
  | [] => ""
  | [last] => last
  | last :: before => ", ".intercalate before.reverse ++ " and " ++ last

def holeText (name : String) : String := "`\x7b" ++ name ++ "\x7d`"

namespace LogMethod

/-- The parameter that a misspelt placeholder means: its name without the blanks
around it, up to the case of ASCII letters. -/
def closeParameter? (m : LogMethod) (placeholder : String) : Option Parameter :=
  let wanted := trim placeholder
  m.parameters.find? fun p => p.field == wanted || equalIgnoringAsciiCase p.field wanted

/-- How an unknown placeholder can be mended. -/
def suggestion (m : LogMethod) (placeholder : String) : String :=
  match m.closeParameter? placeholder with
  | some p => "did you mean " ++ holeText p.field ++ "?"
  | none =>
      if m.parameters.isEmpty then
        m.name.quoted ++ " declares no parameters; add one named " ++ quoted (trim placeholder)
          ++ " or remove the placeholder"
      else "declared parameters are " ++ nameList (m.parameters.map Parameter.field)

/-- The placeholders of a template, with their offsets. -/
def holes (m : LogMethod) : List (String × Nat) :=
  m.segments.filterMap fun s =>
    match s with
    | .placeholder name position => some (name, position)
    | .literal _ => none

/-- The first placeholder of each name, in the order of the template. -/
def firstOfName : (seen : List String) → List (String × Nat) → List (String × Nat)
  | _, [] => []
  | seen, hole :: holes =>
      if seen.contains hole.1 then firstOfName seen holes
      else hole :: firstOfName (hole.1 :: seen) holes

/-- The placeholders that are bound to nothing, each name once. -/
def unknownHoles (m : LogMethod) : List (String × Nat) :=
  firstOfName []
    (((m.holes.zip m.bindings).filter fun (_, binding) => binding.isNone).map Prod.fst)

def unknownViolation (m : LogMethod) (hole : String × Nat) : Violation :=
  let report : ErrorReport :=
    { ErrorReport.atOffset "unknown placeholder" m.message.value hole.2 with
      caption := "no parameter named " ++ quoted hole.1 }
  { methodViolation .unknownPlaceholder m.name m.message.place
      ("placeholder " ++ holeText hole.1 ++ " in the message of " ++ m.name.quoted
        ++ " does not match any parameter") with
    subject := some hole.1
    detail := some report.excerpt
    help := some (m.suggestion hole.1) }

def violations (m : LogMethod) (into : Ident) : Report :=
  signatureViolations into m.name m.signature m.body ++ m.unknownHoles.map m.unknownViolation

/-- The parameters that no placeholder names. -/
def unreferenced (m : LogMethod) : List Parameter :=
  (m.parameters.zipIdx.filter fun (_, i) => !m.references i).map Prod.fst

end LogMethod

/-! ## Event ids -/

/-- The ids of methods, each once, in the order of their first declaration. -/
def declaredIds : (seen : List Int) → List LogMethod → List Int
  | _, [] => []
  | seen, m :: ms =>
      if seen.contains m.event.value then declaredIds seen ms
      else m.event.value :: declaredIds (m.event.value :: seen) ms

/-- The violation that an id is if several methods declare it. -/
def duplicateViolations (methods : List LogMethod) (id : Int) : Report :=
  let declaring := methods.filter (·.event.value = id)
  match declaring with
  | _ :: second :: _ =>
      let names := declaring.map (·.name.text)
      [{ methodViolation .duplicateEventId second.name second.event.place
          ("event id " ++ Int.repr id ++ " is declared by " ++ nameList names) with
        subject := some (", ".intercalate names)
        help := some "give every log method of an interface its own event id" }]
  | _ => []

namespace Interface

def validate (d : Interface) : Report :=
  let into := Naming.intoCompanion d.companion
  (d.shapeViolations ++ d.methods.flatMap (·.violations into)
    ++ (declaredIds [] d.methods).flatMap (duplicateViolations d.methods)).map
    fun v => { v with interface := d.name.text }

def notes (d : Interface) : List Note :=
  d.methods.flatMap fun m =>
    m.unreferenced.map fun p => ⟨d.name.text, m.name.text, p.field⟩

end Interface

end LogInterface
