/-
# Companion.Tokens -- companions as source

The items of a companion as tokens.  The modules of the methods lie two levels
below the trait, so a runtime path that starts at `self` or `super` is written
from there; any other relative path may name an import of the trait's module, and
then every module imports all that its parent sees.
-/
import LogInterface.Companion.Basic
import LogInterface.Token.Code

namespace LogInterface

open Token

set_option autoImplicit false

/-! ## Paths -/

/-- A path to something in a crate or module. -/
def within (path : List Token) (names : String) : List Token := path ++ code ("::" ++ " " ++ names)

/-- The path of the runtime crate, as it is seen two levels below, and whether
the parent's names are needed to see it. -/
def nestedRuntime (path : Tree) : List Token × Bool :=
  let rooted := match path.children with
    | .token _ :: _ => true
    | _ => false
  match rooted, firstName? path.children with
  | false, some first =>
      if first.text == "crate" then (path.tokens, false)
      else if first.text == "self" then
        (code "super :: super" ++ ((elements path.children).drop 1).flatMap
          (fun s => operator "::" ++ s.tokens), false)
      else if first.text == "super" then (code "super :: super ::" ++ path.tokens, false)
      else (path.tokens, true)
  | _, _ => (path.tokens, false)

/-- The import of all that the parent module sees. -/
def parentImport (needed : Bool) : List Token :=
  if needed then allow ["unused_imports"] ++ code "use super :: * ;" else []

def writeResult : List Token := code ":: core :: fmt :: Result"

def formatter : List Token :=
  code "f : & mut :: core :: fmt :: Formatter <" ++ someLifetime ++ operator ">"

/-! ## Views -/

namespace MethodModule

/-- The names of the type parameters of the view. -/
def typeNames (m : MethodModule) : List String :=
  (List.range m.fields.length).map fun i => "T" ++ Nat.repr i

/-- The type parameters between angle brackets. -/
def typeArguments (m : MethodModule) : List Token :=
  code "<" ++ commas (m.typeNames.map code) ++ code ">"

def boundedTypes (m : MethodModule) (runtime : List Token) : List Token :=
  code "<"
    ++ commas (m.typeNames.map fun t => code t ++ operator ":" ++ within runtime "ToFieldValue")
    ++ code ">"

def eventTokens (m : MethodModule) (runtime : List Token) : List Token :=
  let sign := if m.event < 0 then operator "-" else []
  code "pub const EVENT :" ++ within runtime "EventId" ++ operator "="
    ++ within runtime "EventId :: new"
    ++ parens (sign ++ number m.event.natAbs ++ operator "," ++ stringLiteral m.eventName)
    ++ operator ";"

def fieldValue (runtime : List Token) (field : Ident) : List Token :=
  within runtime "ToFieldValue :: to_field_value" ++ parens (code "& self ." ++ [field.token])

def optionalField (runtime : List Token) : List Token :=
  code ":: core :: option :: Option <" ++ within runtime "Field <" ++ someLifetime ++ operator ">>"

def lenTokens (m : MethodModule) : List Token :=
  code "fn len" ++ parens (code "& self") ++ code "-> usize" ++ braces (number m.fields.length)

def fieldArm (runtime : List Token) (index : Nat) (field : Ident) : List Token :=
  number index ++ code "=> :: core :: option :: Option :: Some"
    ++ parens
      (within runtime "Field :: new"
        ++ parens (stringLiteral field.name ++ operator "," ++ fieldValue runtime field
          ++ operator ","))
    ++ operator ","

def fieldTokens (m : MethodModule) (runtime : List Token) : List Token :=
  if m.fields.isEmpty then
    code "fn field" ++ parens (code "& self , _index : usize") ++ operator "->"
      ++ optionalField runtime ++ braces (code ":: core :: option :: Option :: None")
  else
    code "fn field" ++ parens (code "& self , index : usize") ++ operator "->"
      ++ optionalField runtime
      ++ braces (code "match index"
        ++ braces (m.fields.zipIdx.flatMap (fun (field, i) => fieldArm runtime i field)
          ++ code "_ => :: core :: option :: Option :: None ,"))

/-- One statement that writes a part of the message. -/
def writeTokens (runtime : List Token) : Write → List Token
  | .text s => code "f . write_str" ++ parens (stringLiteral s) ++ code "? ;"
  | .field field =>
      code ":: core :: fmt :: Display :: fmt"
        ++ parens (operator "&" ++ fieldValue runtime field ++ code ", f ,") ++ code "? ;"

def displayBody (m : MethodModule) (runtime : List Token) : List Token :=
  if m.writes.isEmpty then code "f . write_str" ++ parens (stringLiteral "")
  else
    m.writes.flatMap (writeTokens runtime)
      ++ code ":: core :: result :: Result :: Ok" ++ parens (parens [])

/-- The implementation that writes the message. -/
def displayTokens (m : MethodModule) (runtime : List Token) : List Token :=
  code "fn fmt" ++ parens (code "& self ," ++ formatter) ++ operator "->" ++ writeResult
    ++ braces (m.displayBody runtime)

def viewTokens (m : MethodModule) (runtime : List Token) : List Token :=
  let logFields := within runtime "LogFields for Fields"
  let display := code ":: core :: fmt :: Display for Fields"
  let fields := braces (m.lenTokens ++ m.fieldTokens runtime)
  let shown := braces (m.displayTokens runtime)
  if m.fields.isEmpty then
    code "pub struct Fields ;" ++ code "impl" ++ logFields ++ fields
      ++ code "impl" ++ display ++ shown
  else
    let declared := (m.fields.zip m.typeNames).flatMap fun (field, t) =>
      code "pub" ++ [field.token] ++ code (": " ++ t ++ " ,")
    code "pub struct Fields" ++ m.typeArguments ++ braces declared
      ++ code "impl" ++ m.boundedTypes runtime ++ logFields ++ m.typeArguments ++ fields
      ++ code "impl" ++ m.boundedTypes runtime ++ display ++ m.typeArguments ++ shown

def tokens (m : MethodModule) (runtime : List Token) (importParent : Bool) : List Token :=
  code "pub mod" ++ [m.name.token]
    ++ braces (parentImport importParent ++ m.eventTokens runtime ++ m.viewTokens runtime)

end MethodModule

/-! ## Methods -/

def levelTokens (runtime : List Token) (l : Level) : List Token :=
  within runtime ("Level :: " ++ l.name)

def inModule (hidden module : Ident) (name : String) : List Token :=
  [hidden.token] ++ operator "::" ++ [module.token] ++ code (":: " ++ name)

namespace ExtensionMethod

def capture (e : ExtensionMethod) (hidden : Ident) : List Token :=
  if e.captures.isEmpty then inModule hidden e.module "Fields"
  else
    inModule hidden e.module "Fields"
      ++ braces (commas (e.captures.map fun i => [i.token] ++ code ": &" ++ [i.token]))

/-- The body: nothing is captured unless the level is enabled. -/
def body (e : ExtensionMethod) (runtime : List Token) (hidden : Ident) : List Token :=
  let level := levelTokens runtime e.level
  code "if !" ++ within runtime "Logger :: is_enabled" ++ parens (code "self ," ++ level)
    ++ braces (code "return ;")
    ++ code "let __fields =" ++ e.capture hidden ++ operator ";"
    ++ within runtime "Logger :: log"
    ++ parens (code "self , &" ++ within runtime "Record :: new"
      ++ parens (level ++ operator "," ++ inModule hidden e.module "EVENT"
        ++ code ", & __fields , & __fields") ++ operator ",")
    ++ operator ";"

/-- The line that documents event and level. -/
def summary (e : ExtensionMethod) : String :=
  " Event id `" ++ Int.repr e.event ++ "`, level `" ++ e.level.name ++ "`."

def tokens (e : ExtensionMethod) (runtime : List Token) (hidden : Ident) : List Token :=
  e.docs.flatMap Attribute.tokens ++ (if e.docs.isEmpty then [] else documentation "")
    ++ documentation e.summary ++ e.signature.tokens ++ braces (e.body runtime hidden)

end ExtensionMethod

def WrapperMethod.tokens (w : WrapperMethod) (extension : Ident) : List Token :=
  w.signature.tokens
    ++ braces ([extension.token] ++ operator "::" ++ [w.target.token]
      ++ parens (code "& self . logger ," ++ commas (w.arguments.map fun i => [i.token])))

/-! ## Items -/

namespace Companion

/-- The module that holds the modules of the methods. -/
def hiddenTokens (c : Companion) : List Token :=
  let (runtime, importParent) := nestedRuntime c.runtime
  marker (code "doc" ++ parens (code "hidden"))
    ++ allow ["non_snake_case", "non_camel_case_types"]
    ++ code "mod" ++ [(Naming.hiddenModule c.name).token]
    ++ braces (parentImport importParent ++ c.modules.flatMap (·.tokens runtime importParent))

def extensionDoc (c : Companion) : String :=
  " Logs the events of `" ++ c.interface.text
    ++ "` directly on any logger.\n\n Implemented for every `Logger`; call `"
    ++ (Naming.intoCompanion c.name).text ++ "` to obtain a `" ++ c.interface.text
    ++ "` implementation."

/-- The extension trait, and its implementation for every logger. -/
def extensionTokens (c : Companion) : List Token :=
  let runtime := c.runtime.tokens
  let name := Naming.extensionTrait c.name
  let hidden := Naming.hiddenModule c.name
  let into :=
    rawDocumentation " Wraps this logger in a value implementing the logging trait."
      ++ code "fn" ++ [(Naming.intoCompanion c.name).token] ++ parens (code "self")
      ++ operator "->" ++ [c.name.token]
      ++ code "< Self > where Self : :: core :: marker :: Sized ,"
      ++ braces ([c.name.token] ++ code ":: new" ++ parens (code "self"))
  documentation c.extensionDoc ++ allow ["non_snake_case", "dead_code"]
    ++ c.visibility.tokens ++ code "trait" ++ [name.token] ++ operator ":"
    ++ within runtime "Logger"
    ++ braces (c.extensions.flatMap (·.tokens runtime hidden) ++ into)
    ++ code "impl < L :" ++ within runtime "Logger + ? :: core :: marker :: Sized >"
    ++ [name.token] ++ code "for L" ++ braces []

def wrapperTokens (c : Companion) : List Token :=
  let seen := c.visibility.tokens
  documentation
      (" A `" ++ c.interface.text ++ "` implementation that logs through a wrapped logger.")
    ++ marker (code "derive" ++ parens (code "Debug , Clone")) ++ allow ["dead_code"]
    ++ seen ++ code "struct" ++ [c.name.token] ++ code "< L >" ++ braces (code "logger : L ,")
    ++ allow ["dead_code"] ++ code "impl < L >" ++ [c.name.token] ++ code "< L >"
    ++ braces
      (rawDocumentation " Wraps `logger`." ++ seen ++ code "const fn new"
        ++ parens (code "logger : L") ++ code "-> Self"
        ++ braces (code "Self" ++ braces (code "logger"))
        ++ rawDocumentation " Returns the wrapped logger." ++ seen ++ code "fn logger"
        ++ parens (code "& self") ++ code "-> & L" ++ braces (code "& self . logger")
        ++ rawDocumentation " Unwraps the logger." ++ seen ++ code "fn into_inner"
        ++ parens (code "self") ++ code "-> L" ++ braces (code "self . logger"))

def implementationTokens (c : Companion) : List Token :=
  allow ["non_snake_case"] ++ code "impl < L :" ++ within c.runtime.tokens "Logger >"
    ++ [c.interface.token] ++ code "for" ++ [c.name.token] ++ code "< L >"
    ++ braces (c.wrappers.flatMap (·.tokens (Naming.extensionTrait c.name)))

def eventsTokens (c : Companion) : List Token :=
  let hidden := Naming.hiddenModule c.name
  documentation (" Event ids of `" ++ c.interface.text ++ "`, in declaration order.")
    ++ allow ["dead_code"] ++ c.visibility.tokens ++ code "const"
    ++ [(Naming.eventsConst c.name).token] ++ code ": &"
    ++ square (within c.runtime.tokens "EventId") ++ code "= &"
    ++ square (commas (c.events.map fun m => inModule hidden m "EVENT")) ++ operator ";"

def tokens (c : Companion) : List Token :=
  c.hiddenTokens ++ c.extensionTokens ++ c.wrapperTokens ++ c.implementationTokens
    ++ c.eventsTokens

end Companion

end LogInterface
