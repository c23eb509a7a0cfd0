/-
# Interface.Violation -- what is wrong with an interface

A `Violation` is one broken rule: its kind, what it is about, where it points and
how it can be mended.  A `Note` is an observation that stops nothing.  `Report`
is a list of violations in the order in which they were found, with the texts
that are made of it.
-/
import LogInterface.Text.Escape
import LogInterface.Text.Excerpt
import LogInterface.Parser.Stream

namespace LogInterface

open LogInterface.Text

set_option autoImplicit false

/-- The kinds of violations. -/
inductive ViolationKind where
  /-- The source does not parse. -/
  | invalidSource
  /-- A message template is malformed. -/
  | syntaxError
  /-- The arguments of an attribute are malformed. -/
  | invalidAttribute
  /-- The trait is no plain logging interface. -/
  | invalidInterfaceShape
  /-- A method is no plain log method. -/
  | invalidMethodShape
  /-- Several methods have one event id. -/
  | duplicateEventId
  /-- A placeholder names no parameter. -/
  | unknownPlaceholder
  deriving DecidableEq, Repr

namespace ViolationKind

def all : List ViolationKind :=
  [.invalidSource, .syntaxError, .invalidAttribute, .invalidInterfaceShape, .invalidMethodShape,
   .duplicateEventId, .unknownPlaceholder]

def name : ViolationKind → String
  | .invalidSource => "InvalidSource"
  | .syntaxError => "SyntaxError"
  | .invalidAttribute => "InvalidAttribute"
  | .invalidInterfaceShape => "InvalidInterfaceShape"
  | .invalidMethodShape => "InvalidMethodShape"
  | .duplicateEventId => "DuplicateEventId"
  | .unknownPlaceholder => "UnknownPlaceholder"

def ofName? (text : String) : Option ViolationKind := all.find? (·.name == text)

end ViolationKind

/-- One broken rule. -/
structure Violation where
  kind : ViolationKind
  /-- The logging trait; empty if the source did not parse. -/
  interface : String := ""
  method : Option String := none
  /-- The parameter, the placeholder or the methods it is about. -/
  subject : Option String := none
  message : String
  help : Option String := none
  /-- Lines that show the context. -/
  detail : Option String := none
  place : Place
  deriving DecidableEq, Repr

namespace Violation

def ofParseError (kind : ViolationKind) (e : ParseError) : Violation :=
  { kind, message := e.message, place := e.place }

def text (v : Violation) : String := v.kind.name ++ ": " ++ v.message

def compilerText (v : Violation) : String :=
  v.text
    ++ (match v.detail with
        | some detail => "\n" ++ trimEnd detail
        | none => "")
    ++ (match v.help with
        | some help => "\nhelp: " ++ help
        | none => "")

/-- The violation against the source it was found in. -/
def render (v : Violation) (source filename : String) : String :=
  let report : ErrorReport :=
    { message := v.text, source, filename
      location := ⟨max v.place.line 1, v.place.column + 1⟩ }
  report.text
    ++ (match v.detail with
        | some detail => if detail.endsWith "\n" then detail else detail ++ "\n"
        | none => "")
    ++ (match v.help with
        | some help => "help: " ++ help ++ "\n"
        | none => "")

end Violation

/-- The tokens that make a compiler show a message. -/
def compileError (message : String) : List Token :=
  Token.operator "::" ++ [Token.word "core"] ++ Token.operator "::"
    ++ [Token.word "compile_error"] ++ Token.operator "!"
    ++ [Token.wrap .brace [.literal (quotedLiteral message) .nowhere]]

/-! ## Reports -/

/-- Violations in the order in which they were found. -/
abbrev Report := List Violation

namespace Report

def text (r : Report) : String :=
  Nat.repr r.length ++ " violation" ++ (if r.length = 1 then "" else "s")
    ++ String.join (r.map fun v => "\n  - " ++ v.text)

/-- All violations against the source they were found in. -/
def render (r : Report) (source filename : String) : String :=
  "\n".intercalate (r.map (·.render source filename))

def ofKind (r : Report) (kind : ViolationKind) : Report := r.filter (·.kind = kind)

/-- The tokens that make a compiler show every violation. -/
def compileErrors (r : Report) : List Token := r.flatMap fun v => compileError v.compilerText

end Report

/-! ## Notes -/

/-- A parameter that no placeholder names. -/
structure Note where
  interface : String
  method : String
  parameter : String
  deriving DecidableEq, Repr

def Note.text (n : Note) : String :=
  "`" ++ n.interface ++ "::" ++ n.method ++ "`: parameter `" ++ n.parameter
    ++ "` is not referenced by the message template and is logged as a structured field only"

end LogInterface
