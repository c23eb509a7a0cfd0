/-
# Text.Excerpt -- errors shown with their source line

An `ErrorReport` points at one location of a source text.  Its `excerpt` has
three lines: a bar, the numbered source line, and a caret under the column with
an optional caption.  A tab takes four columns, and of a long line only the part
around the caret is shown.  There is no excerpt where the line does not exist.
-/
import LogInterface.Text.Blank
import LogInterface.Text.Location

namespace LogInterface.Text

set_option autoImplicit false

/-- An error message and the place in a source text that it is about. -/
structure ErrorReport where
  message : String
  source : String
  location : Location
  filename : String := "input"
  caption : String := ""
  help : Option String := none

def blanks (n : Nat) : List Char := List.replicate n ' '

/-- Tabs drawn as four blanks. -/
def expandTabs (line : List Char) : List Char :=
  line.flatMap fun c => if c = '\t' then blanks 4 else [c]

/-- The longest line that is shown whole. -/
def maxShownLine : Nat := 80

/-- How many characters are shown on each side of the caret in a long line. -/
def caretContext : Nat := 30

/-- What is shown of a line and how many characters stand before the caret. -/
structure ShownLine where
  text : List Char
  caret : Nat

/-- A line as it is shown, with the caret under `column`. -/
def ShownLine.ofLine (line : List Char) (column : Nat) : ShownLine :=
  let expanded := expandTabs line
  let caret := (expandTabs (line.take (column - 1))).length
  if expanded.length ≤ maxShownLine then ⟨expanded, caret⟩
  else
    let first := min (caret - caretContext) expanded.length
    let last := min (caret + caretContext) expanded.length
    let before := if first > 0 then ['.', '.', '.'] else []
    let after := if last < expanded.length then ['.', '.', '.'] else []
    ⟨before ++ (expanded.drop first).take (last - first) ++ after,
      caret - first + before.length⟩

/-- The three lines around the caret, or nothing where the line does not exist. -/
def ErrorReport.excerpt (r : ErrorReport) : String :=
  match lineAt? r.source r.location.line with
  | none => ""
  | some line =>
      let number := Nat.repr r.location.line
      let margin := String.ofList (blanks number.length)
      let shown := ShownLine.ofLine line r.location.column
      let caretLine := margin ++ " | " ++ String.ofList (blanks shown.caret) ++ "^ " ++ r.caption
      margin ++ " |\n" ++ number ++ " | " ++ String.ofList shown.text ++ "\n" ++ trimEnd caretLine
        ++ "\n"

/-- The message, where it is about, the excerpt and the help. -/
def ErrorReport.text (r : ErrorReport) : String :=
  "error: " ++ r.message ++ "\n --> " ++ r.filename ++ ":" ++ Nat.repr r.location.line ++ ":"
    ++ Nat.repr r.location.column ++ "\n" ++ r.excerpt
    ++ (match r.help with
        | some help => "help: " ++ help ++ "\n"
        | none => "")

/-- A report about a byte offset of the source. -/
def ErrorReport.atOffset (message source : String) (offset : Nat) : ErrorReport :=
  { message, source, location := Location.ofOffset source offset }

end LogInterface.Text
