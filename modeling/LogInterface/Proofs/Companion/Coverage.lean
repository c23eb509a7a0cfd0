/-
# Proofs.Companion.Coverage -- a companion covers its trait

For an accepted trait the companion has one module, one method of the extension
trait, one method of the wrapper and one event for each method of the trait, in the
order of the declaration (`companion_covers`).

A description keeps the whole signature of a method, but of its inputs only the
plain parameters.  What is generated mixes the two: the signature is copied, and
the arguments are passed on by the parameters.  They agree because an input that is
no plain parameter breaks a rule (`patterns_of_isLogging`).
-/
import LogInterface.Proofs.Interface.Acceptance

namespace LogInterface

set_option autoImplicit false

/-! ## Copied signatures -/

/-- The input is copied: it loses its attributes and nothing else. -/
inductive Input.Copied : Input → Input → Prop where
  | receiver (r : Receiver) : Copied (.receiver r) (.receiver { r with attributes := [] })
  | typed (attributes : List Attribute) (pattern : Pattern) (type : Tree) :
      Copied (.typed attributes pattern type) (.typed [] pattern type)

/-- The signature is copied: its inputs are, and the rest stays as it is. -/
structure Signature.Copied (s copy : Signature) : Prop where
  inputs : List.Forall₂ Input.Copied s.inputs copy.inputs
  rest : copy = { s with inputs := copy.inputs }

theorem copied_plain (s : Signature) : s.Copied s.plain := by
  refine ⟨?_, rfl⟩
  rw [Signature.plain, List.forall₂_map_right_iff, List.forall₂_same]
  intro i _
  cases i with
  | receiver r => exact .receiver r
  | typed attributes pattern type => exact .typed attributes pattern type

/-! ## Declared inputs -/

def Input.pattern? : Input → Option Pattern
  | .receiver _ => none
  | .typed _ pattern _ => some pattern

/-- The patterns of all inputs but the receiver, in their order. -/
def Signature.patterns (s : Signature) : List Pattern := s.inputs.filterMap Input.pattern?

/-- Every input of a log method but its receiver is a plain parameter. -/
theorem patterns_of_isLogging {s : Signature} (logging : s.IsLogging) :
    s.patterns = s.idents.map .name := by
  rw [Signature.patterns, Signature.idents, List.map_filterMap]
  refine List.filterMap_congr fun i member => ?_
  cases i with
  | receiver r => rfl
  | typed attributes pattern type =>
      obtain ⟨i, rfl, -⟩ := (logging.parameters attributes pattern type member).named
      rfl

theorem parameterNames_bind (m : Method) (args : MessageArguments) (segments : List Segment) :
    (LogMethod.bind m args segments).parameterNames = m.signature.idents :=
  parametersFrom_names 0 m.signature.inputs

/-! ## What stands for a method -/

/-- The module holds the view of the method, with a field for every input. -/
structure MethodModule.Of (m : Method) (x : MethodModule) : Prop where
  name : x.name = m.signature.name
  fields : m.signature.patterns = x.fields.map .name

/-- The method of the extension trait has the declared signature, and its view
captures every input once, in the order of the declaration. -/
structure ExtensionMethod.Of (m : Method) (x : ExtensionMethod) : Prop where
  signature : m.signature.Copied x.signature
  module : x.module = m.signature.name
  captures : m.signature.patterns = x.captures.map .name

/-- The method of the wrapper has the declared signature and passes every input on
once, in the order of the declaration, to the extension method of its name. -/
structure WrapperMethod.Of (m : Method) (x : WrapperMethod) : Prop where
  signature : m.signature.Copied x.signature
  target : x.target = m.signature.name
  arguments : m.signature.patterns = x.arguments.map .name

theorem module_of_bind {m : Method} {args : MessageArguments} {segments : List Segment}
    (logging : m.signature.IsLogging) : MethodModule.Of m (LogMethod.bind m args segments).module :=
  ⟨rfl, by rw [patterns_of_isLogging logging, LogMethod.module, parameterNames_bind]⟩

theorem extension_of_bind {m : Method} {args : MessageArguments} {segments : List Segment}
    (logging : m.signature.IsLogging) :
    ExtensionMethod.Of m (LogMethod.bind m args segments).extension :=
  ⟨copied_plain m.signature, rfl,
    by rw [patterns_of_isLogging logging, LogMethod.extension, parameterNames_bind]⟩

theorem wrapper_of_bind {m : Method} {args : MessageArguments} {segments : List Segment}
    (logging : m.signature.IsLogging) :
    WrapperMethod.Of m (LogMethod.bind m args segments).wrapper :=
  ⟨copied_plain m.signature, rfl,
    by rw [patterns_of_isLogging logging, LogMethod.wrapper, parameterNames_bind]⟩

/-! ## The companion -/

/-- The companion stands for the trait, method by method and in the same order. -/
structure Companion.Covers (c : Companion) (t : TraitDecl) : Prop where
  modules : List.Forall₂ MethodModule.Of t.methods c.modules
  extensions : List.Forall₂ ExtensionMethod.Of t.methods c.extensions
  wrappers : List.Forall₂ WrapperMethod.Of t.methods c.wrappers
  events : c.events = t.methods.map (·.signature.name)

/-- **The companion of an accepted trait covers it**: nothing is left out, added
or moved, among the methods and among the inputs of each. -/
theorem covers_of_expand {t : TraitDecl} {cx : Context} {e : Expansion}
    (accepted : expand t cx = .ok e) : e.companion.Covers t := by
  rw [(methods_of_expand accepted).1]
  refine ⟨?modules, ?extensions, ?wrappers, ?events⟩
  case modules =>
    exact forall_of_expand accepted fun _ _ _ _ _ logging => module_of_bind logging.signature
  case extensions =>
    exact forall_of_expand accepted fun _ _ _ _ _ logging => extension_of_bind logging.signature
  case wrappers =>
    exact forall_of_expand accepted fun _ _ _ _ _ logging => wrapper_of_bind logging.signature
  case events =>
    have named : List.Forall₂ (fun m name => name = m.signature.name) t.methods
        ((t.describe cx).1.methods.map LogMethod.name) :=
      forall_of_expand accepted fun _ _ _ _ _ _ => rfl
    have same := List.forall₂_map_right_iff.mpr named.flip
    rwa [List.forall₂_eq_eq_eq] at same

end LogInterface
