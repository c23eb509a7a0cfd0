/-
# Generation.Basic -- from a source file to a source file

`generate` answers a file in which every annotated trait at the top is followed
by its companion.  Either all of them are accepted, or nothing is generated and
everything that is wrong with the file is answered.  Annotated traits inside other
items are always wrong, since their companions could not be named from outside.
-/
import LogInterface.Generation.Progress
import LogInterface.Layout.File

namespace LogInterface

set_option autoImplicit false

/-- What can be chosen for a run. -/
structure Settings where
  /-- The path of the runtime crate. -/
  runtime : Tree := defaultRuntime
  /-- Does a line at the top tell that the file is generated? -/
  header : Bool := true

/-- The line at the top of a generated file, and an empty one. -/
def generatedHeader : String :=
  "// @generated by typed_logging_codegen from a logging interface description. Do not edit.\n\n"

/-- An interface and the name of its companion. -/
structure Generation.Pair where
  interface : Ident
  companion : Ident
  deriving DecidableEq, Repr

structure Generated where
  source : String
  interfaces : List Generation.Pair
  notes : List Note
  deriving DecidableEq, Repr

/-- What becomes of one item. -/
structure Replacement where
  /-- What stands in its place. -/
  tokens : List Token := []
  interfaces : List Generation.Pair := []
  notes : List Note := []
  report : Report := []
  progress : List Progress := []

def Replacement.join (rs : List Replacement) : Replacement :=
  { tokens := rs.flatMap Replacement.tokens
    interfaces := rs.flatMap Replacement.interfaces
    notes := rs.flatMap Replacement.notes
    report := rs.flatMap Replacement.report
    progress := rs.flatMap Replacement.progress }

def TraitDecl.isAnnotated (t : TraitDecl) : Bool := t.attributes.any Attribute.isTrigger

/-- How an annotated trait is found: its first annotation gives the arguments. -/
def Settings.context (settings : Settings) (nested : Bool) (t : TraitDecl) : Context :=
  let triggers := t.attributes.filter Attribute.isTrigger
  { arguments := (triggers.head?.map Attribute.arguments).getD []
    nested
    triggers := 1 + (triggers.length - 1)
    runtime := settings.runtime }

/-- What becomes of an annotated trait at the top of the file. -/
def TraitDecl.replacement (settings : Settings) (t : TraitDecl) : Replacement :=
  let x := t.examine (settings.context false t)
  match x.expansion t with
  | .ok e =>
      { tokens := e.tokens
        interfaces := [⟨t.name, e.companion.name⟩]
        notes := e.notes
        progress := x.progress }
  | .error report => { report, progress := x.progress }

/-- What becomes of any other item: it stays, unless something inside is annotated. -/
def Tree.replacement (settings : Settings) (item : Tree) : Replacement :=
  let inside := (item.declaredTraits.filter TraitDecl.isAnnotated).map fun t =>
    t.examine (settings.context true t)
  { tokens := item.tokens
    report := inside.flatMap Examined.report
    progress := inside.flatMap Examined.progress }

def replaceItem (settings : Settings) : Tree → Replacement
  | .trait t =>
      if t.isAnnotated then t.replacement settings else (Tree.trait t).replacement settings
  | item => item.replacement settings

def SourceFile.replacement (settings : Settings) (f : SourceFile) : Replacement :=
  .join (f.items.map (replaceItem settings))

/-- A parse error of a whole file. -/
def invalidSource (e : ParseError) (help : String) : Report :=
  [{ Violation.ofParseError .invalidSource e with help := some help }]

/-- The text of a file with some items, which are parsed again. -/
def SourceFile.printed (f : SourceFile) (settings : Settings) (items : List Token) :
    Except Report String :=
  match SourceFile.ofTokens true (f.attributes.flatMap Attribute.tokens ++ items) with
  | .error e =>
      .error (invalidSource e "the generated items failed to parse; this is a generator bug")
  | .ok whole => .ok ((if settings.header then generatedHeader else "") ++ whole.text)

/-- A file in which annotated traits are followed by their companions. -/
def SourceFile.generate (f : SourceFile) (settings : Settings) : Except Report Generated :=
  let r := f.replacement settings
  if r.report.isEmpty then
    (f.printed settings r.tokens).map fun source =>
      { source, interfaces := r.interfaces, notes := r.notes }
  else .error r.report

def SourceFile.progress (f : SourceFile) (settings : Settings) : List Progress :=
  let r := f.replacement settings
  r.progress ++ [.processed r.interfaces.length r.report.length r.notes.length]

/-- The text of a file in which annotated traits are followed by their companions,
or everything that is wrong with it. -/
def generate (source : String) (settings : Settings) : Except Report Generated :=
  match SourceFile.ofSource source with
  | .ok f => f.generate settings
  | .error e =>
      .error (invalidSource e "the input must be a complete, syntactically valid Rust source file")

/-- The steps of `generate`; there are none if the source does not parse. -/
def progress (source : String) (settings : Settings) : List Progress :=
  match SourceFile.ofSource source with
  | .ok f => f.progress settings
  | .error _ => []

end LogInterface
