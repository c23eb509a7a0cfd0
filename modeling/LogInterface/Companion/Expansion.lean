/-
# Companion.Expansion -- from a trait to its companion

`TraitDecl.examine` describes and checks a trait, and `expand` answers the trait
without the generator's attributes together with its companion, or everything
that is wrong with it.  `expandAttribute` and `strayMessage` are what the two
attributes expand to.
-/
import LogInterface.Companion.Tokens

namespace LogInterface

set_option autoImplicit false

/-- A trait that was described and checked. -/
structure Examined where
  interface : Interface
  /-- What could not be described. -/
  built : Report
  /-- What breaks a rule. -/
  found : Report

def TraitDecl.examine (t : TraitDecl) (cx : Context) : Examined :=
  let (interface, built) := t.describe cx
  ⟨interface, built, interface.validate⟩

def Examined.report (x : Examined) : Report := x.built ++ x.found

/-- A trait and what is generated for it. -/
structure Expansion where
  /-- The trait without the generator's attributes. -/
  declaration : TraitDecl
  companion : Companion
  notes : List Note

def Expansion.tokens (e : Expansion) : List Token := e.declaration.tokens ++ e.companion.tokens

def Examined.expansion (x : Examined) (t : TraitDecl) : Except Report Expansion :=
  if x.report.isEmpty then .ok ⟨t.stripped, x.interface.companionItems, x.interface.notes⟩
  else .error x.report

/-- The expansion of a trait, or everything that is wrong with it. -/
def expand (t : TraitDecl) (cx : Context) : Except Report Expansion := (t.examine cx).expansion t

/-! ## Attributes -/

/-- The path of the runtime crate where none is named. -/
def defaultRuntime : Tree :=
  .node .path
    (Tree.ofTokens (Token.operator "::")
      ++ [.node .segment [.token (.word "typed_logging"), .absent]])

/-- How the attribute on a trait finds it: `arguments` are its own, and other
attributes of the kind may follow it. -/
def Context.ofAttribute (t : TraitDecl) (arguments : List Token) : Context :=
  { arguments
    nested := false
    triggers := 1 + (t.attributes.filter Attribute.isTrigger).length
    runtime := defaultRuntime }

def expandAttribute (arguments item : List Token) : List Token :=
  match TraitDecl.ofTokens item with
  | .error e =>
      compileError ("`#[logger_extensions]` applies to trait declarations: " ++ e.message)
  | .ok t =>
      match expand t (Context.ofAttribute t arguments) with
      | .ok e => e.tokens
      | .error report => t.stripped.tokens ++ report.compileErrors

/-- What the attribute on a method expands to where no trait consumes it. -/
def strayMessage (item : List Token) : List Token :=
  compileError "`#[logger_message]` is only valid on methods of a `#[logger_extensions]` trait"
    ++ item

end LogInterface
