/-
# Level -- how severe an event is

Six levels in one order.  A level is written as its name; `ofName?` reads
exactly that, and `ofText?` reads what people write: any case, blanks around it,
and the short forms `info`, `warn` and `crit`.
-/
import LogInterface.Text.Blank
import LogInterface.Text.Letter

namespace LogInterface

open LogInterface.Text

set_option autoImplicit false

/-- The severity of an event. -/
inductive Level where
  | trace
  | debug
  | information
  | warning
  | error
  | critical
  deriving DecidableEq, Repr, Inhabited

namespace Level

/-- All levels, from least to most severe. -/
def all : List Level := [.trace, .debug, .information, .warning, .error, .critical]

def name : Level → String
  | .trace => "Trace"
  | .debug => "Debug"
  | .information => "Information"
  | .warning => "Warning"
  | .error => "Error"
  | .critical => "Critical"

/-- How many levels are less severe. -/
def rank : Level → Nat
  | .trace => 0
  | .debug => 1
  | .information => 2
  | .warning => 3
  | .error => 4
  | .critical => 5

def below (l : Level) : List Level := all.filter (·.rank < l.rank)

def ofName? (text : String) : Option Level := all.find? (·.name == text)

theorem ofName?_name (l : Level) : ofName? l.name = some l := by
  cases l <;> decide

theorem name_of_ofName? {text : String} {l : Level} (h : ofName? text = some l) :
    l.name = text := by
  have := List.find?_some h
  simpa using this

/-- The level that a text means, whatever its case; blanks around it and short
forms are allowed. -/
def ofText? (text : String) : Option Level :=
  let word := asciiLower (trim text)
  if word == "info" then some .information
  else if word == "warn" then some .warning
  else if word == "crit" then some .critical
  else all.find? (asciiLower ·.name == word)

/-- What is said of a text that means no level. -/
def unknownText (text : String) : String :=
  "unknown log level `" ++ text ++ "`; expected one of " ++ ", ".intercalate (all.map name)

end Level

end LogInterface
