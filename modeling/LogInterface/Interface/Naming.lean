/-
# Interface.Naming -- names of generated items

From the name of a logging trait comes the name of its companion, and from that
the names of everything else.  Names are taken without the mark of a raw
identifier.

`snakeCase` sets an underscore before a capital that starts a word: after a
small letter or a digit, and after a capital when a small letter follows, so
acronyms stay together.
-/
import LogInterface.Source.Tree
import LogInterface.Text.Letter

namespace LogInterface

open LogInterface.Text

set_option autoImplicit false

namespace Naming

/-- Does a word start at a capital?  `next` follows it. -/
def startsWord (previous : Option Char) (next : Option Char) : Bool :=
  match previous with
  | none => false
  | some p =>
      if isLower p || p.isDigit then true
      else isUpper p && next.any isLower

/-- Snake case behind `previous`; `written` is what was written, last first. -/
def snakeFrom (previous : Option Char) (written : List Char) : List Char → List Char
  | [] => written.reverse
  | c :: cs =>
      if isUpper c then
        let written :=
          if startsWord previous cs.head? && written.head? != some '_' then '_' :: written
          else written
        snakeFrom (some c) ((lower c).reverse ++ written) cs
      else snakeFrom (some c) (c :: written) cs

def snakeCase (name : String) : String := String.ofList (snakeFrom none [] name.toList)

/-- The name of the companion of a trait.  A leading `I` before an ASCII capital
goes; every other name takes a suffix. -/
def companionText (name : String) : String :=
  match name.toList with
  | 'I' :: c :: cs => if c.isUpper then String.ofList (c :: cs) else name ++ "Logger"
  | _ => name ++ "Logger"

/-- The companion of a trait, at the place of the trait's name. -/
def companion (interface : Ident) : Ident := ⟨companionText interface.name, interface.place⟩

/-- The extension trait, at the place of the companion's name. -/
def extensionTrait (companion : Ident) : Ident := ⟨companion.name ++ "Ext", companion.place⟩

/-- The module that holds events and views. -/
def hiddenModule (companion : Ident) : Ident := ⟨"__" ++ snakeCase companion.name, .nowhere⟩

def eventsConst (companion : Ident) : Ident :=
  ⟨asciiUpper (snakeCase companion.name) ++ "_EVENTS", .nowhere⟩

/-- The method that wraps a logger in the companion. -/
def intoCompanion (companion : Ident) : Ident :=
  ⟨"into_" ++ snakeCase companion.name, .nowhere⟩

end Naming

end LogInterface
