/-
# Generation.Directory -- generating from file to file

A `Directory` holds files by their names.  `Directory.generate` reads a source
from it, generates, and writes the outcome back; what goes wrong is a
`FileError`.  A file that is rejected leaves the directory as it was.
-/
import LogInterface.Generation.Basic
import LogInterface.Text.Utf8

namespace LogInterface

open LogInterface.Text

set_option autoImplicit false

/-! ## Directories -/

/-- What a name stands for. -/
inductive Directory.Entry where
  | file (bytes : List UInt8)
  | folder
  deriving DecidableEq, Repr

/-- A directory: the names in it, split at slashes, and what they stand for.  The
name with no part is the directory itself; a folder above it has a name of two
dots for each level, and the name of the root is a slash. -/
structure Directory where
  entries : List (List String × Directory.Entry) := []
  deriving DecidableEq, Repr

/-- Why a file cannot be used. -/
inductive AccessError where
  | badName
  | tooLong
  | notFound
  | notFolder
  | isFolder
  | notText
  deriving DecidableEq, Repr

def AccessError.message : AccessError → String
  | .badName => "file name contained an unexpected NUL byte"
  | .tooLong => "File name too long (os error 36)"
  | .notFound => "No such file or directory (os error 2)"
  | .notFolder => "Not a directory (os error 20)"
  | .isFolder => "Is a directory (os error 21)"
  | .notText => "stream did not contain valid UTF-8"

/-- Where a path leads to. -/
structure Directory.Target where
  name : List String
  /-- Is it written with a slash at the end, as only a folder can be? -/
  asFolder : Bool
  deriving DecidableEq, Repr

namespace Directory

/-- Is it the name of the directory itself or of a folder above it? -/
def isAbove (name : List String) : Bool := name.all (· == "..")

def root : List String := ["/"]

def entry? (d : Directory) (name : List String) : Option Entry :=
  if isAbove name || name == root then some .folder
  else (d.entries.find? (·.1 == name)).map Prod.snd

/-- The folder that holds what has this name. -/
def parent (name : List String) : List String :=
  if isAbove name then name ++ [".."] else if name == root then root else name.dropLast

/-- Puts something under a name. -/
def put (d : Directory) (name : List String) (e : Entry) : Directory :=
  ⟨(name, e) :: d.entries.filter (·.1 != name)⟩

/-- The most bytes in a part of a path. -/
def longestName : Nat := 255

def longestPath : Nat := 4095

/-- The name that the parts of a path lead to from a folder. -/
def walk (d : Directory) : (start : List String) → List String → Except AccessError (List String)
  | start, [] => .ok start
  | start, part :: parts =>
      match d.entry? start with
      | none => .error .notFound
      | some (.file _) => .error .notFolder
      | some .folder =>
          if byteLength part.toList > longestName then .error .tooLong
          else
            d.walk
              (if part == "." then start
                else if part == ".." then parent start
                else start ++ [part])
              parts

def resolve (d : Directory) (path : String) : Except AccessError Target :=
  if path.toList.contains '\x00' then .error .badName
  else if path == "" then .error .notFound
  else if byteLength path.toList > longestPath then .error .tooLong
  else
    let start := if path.startsWith "/" then root else []
    (d.walk start ((path.splitOn "/").filter (· != ""))).map fun name =>
      ⟨name, path.endsWith "/"⟩

def read (d : Directory) (path : String) : Except AccessError (List UInt8) := do
  let t ← d.resolve path
  match d.entry? t.name with
  | some (.file bytes) => if t.asFolder then .error .notFolder else .ok bytes
  | some .folder => .error .isFolder
  | none => .error .notFound

def readText (d : Directory) (path : String) : Except AccessError String := do
  match ofBytes? (← d.read path) with
  | some text => .ok text
  | none => .error .notText

def write (d : Directory) (path : String) (bytes : List UInt8) : Except AccessError Directory := do
  let t ← d.resolve path
  if t.asFolder || d.entry? t.name = some .folder then .error .isFolder
  else .ok (d.put t.name (.file bytes))

/-- Puts something where a path leads to. -/
def make (d : Directory) (path : String) (e : Entry) : Directory :=
  match d.resolve path with
  | .ok t => d.put t.name e
  | .error _ => d

end Directory

/-! ## Generating -/

/-- Why nothing was generated. -/
inductive FileError where
  | read (path : String) (cause : AccessError)
  | write (path : String) (cause : AccessError)
  /-- The violations, and their text against the source. -/
  | rejected (path : String) (report : Report) (rendered : String)
  deriving DecidableEq, Repr

def FileError.message : FileError → String
  | .read path cause => "failed to read " ++ path ++ ": " ++ cause.message
  | .write path cause => "failed to write " ++ path ++ ": " ++ cause.message
  | .rejected path report rendered =>
      path ++ " rejected (" ++ Report.text report ++ ")\n" ++ rendered

def Directory.generate (d : Directory) (input output : String) (settings : Settings) :
    Except FileError (Generated × Directory) :=
  match d.readText input with
  | .error e => .error (.read input e)
  | .ok source =>
      match LogInterface.generate source settings with
      | .error report => .error (.rejected input report (Report.render report source input))
      | .ok generated =>
          match d.write output (bytesOf generated.source) with
          | .error e => .error (.write output e)
          | .ok d => .ok (generated, d)

end LogInterface
