/-
# Layout.Path -- paths, bounds, generic parameters and clauses

How names and what they are bound by are laid out.  Every function takes `lay`,
which lays out the trees below.
-/
import LogInterface.Layout.Attribute

namespace LogInterface.Layout

set_option autoImplicit false

/-! ## Small parts -/

def tokenText : Tree → String
  | .token t => t.text
  | _ => ""

def wordIf (t : Tree) (word : String) : Commands := if t.isAbsent then [] else text word

def lifetimeText (t : Tree) : String := String.join (t.children.map tokenText)

def attributesBefore (lay : Tree → Commands) (attributes : Tree) : Commands :=
  outerAttributes lay (attributesOf attributes)

/-- The type behind an arrow, if there is one. -/
def output (lay : Tree → Commands) (t : Tree) : Commands :=
  match t with
  | .node .output children => text " -> " ++ ((children.getLast?.map lay).getD [])
  | _ => []

def singleName? : Tree → Option String
  | .node .path [.node .segment [name, .node .absent _]] => some (tokenText name)
  | _ => none

/-! ## Paths -/

/-- Where a path stands: arguments in an expression have colons before them. -/
inductive PathStyle where
  | type
  | expression
  deriving DecidableEq

def angleArguments (lay : Tree → Commands) (style : PathStyle) (children : List Tree) : Commands :=
  let arguments := elements children
  if arguments.isEmpty then []
  else
    (if style = .expression then text "::" else []) ++ text "<" ++ cbox indentation ++ zeroBreak
      ++ commaList (arguments.map lay) ++ outdent ++ close ++ text ">"

def segmentArguments (lay : Tree → Commands) (style : PathStyle) : Tree → Commands
  | .node .angleArguments children => angleArguments lay style children
  | .node .roundArguments [.group _ _ _ inputs, result] =>
      cbox indentation ++ text "(" ++ zeroBreak ++ commaList ((elements inputs).map lay) ++ outdent
        ++ text ")" ++ output lay result ++ close
  | _ => []

def segment (lay : Tree → Commands) (style : PathStyle) : Tree → Commands
  | .node .segment [name, arguments] =>
      text (tokenText name) ++ segmentArguments lay style arguments
  | _ => []

def isRooted : List Tree → Bool
  | .token _ :: _ => true
  | _ => false

def path (lay : Tree → Commands) (style : PathStyle) (children : List Tree) : Commands :=
  (if isRooted children then text "::" else [])
    ++ separated (text "::") ((elements children).map (segment lay style))

def asTrait (lay : Tree → Commands) : Tree → Commands
  | .node .asTrait [_, .node .path children] => text " as " ++ path lay .type children
  | _ => []

/-- The path behind a qualified type, which goes on in its trait. -/
def pathWithoutType (lay : Tree → Commands) : Tree → Commands
  | .node .qualifiedPath [_, _, ofTrait, _, .node _ rest] =>
      (match ofTrait with
        | .node .asTrait [_, .node .path children] => path lay .expression children
        | _ => [])
        ++ ((elements rest).map fun s => text "::" ++ segment lay .expression s).flatten
  | .node .path children => path lay .expression children
  | _ => []

/-- A path that may start with a qualified type. -/
def qualifiedPath (lay : Tree → Commands) (style : PathStyle) : Tree → Commands
  | .node .path children => path lay style children
  | .node .qualifiedPath [_, type, ofTrait, _, .node _ rest] =>
      text "<" ++ lay type ++ asTrait lay ofTrait ++ text ">"
        ++ ((elements rest).map fun s => text "::" ++ segment lay style s).flatten
  | _ => []

/-! ## Bounds -/

def binder (lay : Tree → Commands) : Tree → Commands
  | .node .forBinder children =>
      text "for<" ++ separated (text ", ") ((elements children).map lay) ++ text "> "
  | _ => []

def captured : Tree → Commands
  | .node .list [name] => text (tokenText name)
  | l => text (lifetimeText l)

def bound (lay : Tree → Commands) : Tree → Commands
  | .node .lifetime children => text (lifetimeText (.node .lifetime children))
  | .node .parenBound [.group _ _ _ [b]] => text "(" ++ lay b ++ text ")"
  | .node .captureBound children =>
      text "use<" ++ separated (text ", ") ((elements children).map captured) ++ text ">"
  | .node .traitBound [fors, .node _ mark, p] =>
      binder lay fors ++ (if mark.isEmpty then [] else text "?") ++ lay p
  | _ => []

/-- Bounds joined by plus signs, without breaks. -/
def plainBounds (lay : Tree → Commands) (bs : List Tree) : Commands :=
  separated (text " + ") ((elements bs).map (bound lay))

/-- Bounds behind `first`, with a break before each further one. -/
def breakingBounds (lay : Tree → Commands) (first : String) (bs : List Tree) : Commands :=
  match (elements bs).map (bound lay) with
  | [] => []
  | b :: rest => text first ++ b ++ (rest.map fun b => space ++ text "+ " ++ b).flatten

def boundsOf : Tree → List Tree
  | .node .bounds children => elements children
  | _ => []

/-! ## Generic parameters -/

def defaultOf : Tree → Option Tree
  | .node .defaultValue children => children.getLast?
  | _ => none

def genericParam (lay : Tree → Commands) : Tree → Commands
  | .node .lifetimeParam [attributes, l, bounds] =>
      attributesBefore lay attributes ++ text (lifetimeText l)
        ++ (match boundsOf bounds with
            | [] => []
            | bs => text ": " ++ plainBounds lay bs)
  | .node .typeParam [attributes, name, bounds, preset] =>
      attributesBefore lay attributes ++ text (tokenText name) ++ ibox indentation
        ++ breakingBounds lay ": " (boundsOf bounds)
        ++ (match defaultOf preset with
            | some t => space ++ text "= " ++ lay t
            | none => [])
        ++ close
  | .node .constParam [attributes, _, name, _, type, preset] =>
      attributesBefore lay attributes ++ text "const " ++ text (tokenText name)
        ++ text ": " ++ lay type
        ++ (match defaultOf preset with
            | some t => text " = " ++ lay t
            | none => [])
  | _ => []

/-- Generic parameters between angle brackets, lifetimes first. -/
def generics (lay : Tree → Commands) (g : Generics) : Commands :=
  if g.params.isEmpty then []
  else
    let (lifetimes, others) := g.params.partition fun p => p.kind = .lifetime
    text "<" ++ cbox 0 ++ zeroBreak
      ++ commaList ((lifetimes ++ others).map fun p => genericParam lay p.tree)
      ++ outdent ++ close ++ text ">"

def genericsOf (lay : Tree → Commands) : Tree → Commands
  | .generics g => generics lay g
  | _ => []

def predicate (lay : Tree → Commands) : Tree → Commands
  | .node .lifetimePredicate [l, _, .node _ bs] =>
      text (lifetimeText l) ++ text ":" ++ ibox indentation ++ breakingBounds lay " " bs ++ close
  | .node .typePredicate [fors, type, _, .node _ bs] =>
      binder lay fors ++ lay type ++ text ":"
        ++ ibox (if (elements bs).length = 1 then 0 else indentation)
        ++ breakingBounds lay " " bs ++ close
  | _ => []

def predicatesOf : Option Tree → List Tree
  | some (.node .whereClause (_ :: predicates)) => elements predicates
  | _ => []

def clauseForBody (lay : Tree → Commands) (clause : Option Tree) : Commands :=
  match predicatesOf clause with
  | [] => text " "
  | ps =>
      hardBreak ++ outdent ++ text "where" ++ hardBreak
        ++ (ps.map fun p => predicate lay p ++ text "," ++ hardBreak).flatten ++ outdent

def clauseAtEnd (lay : Tree → Commands) (clause : Option Tree) : Commands :=
  match predicatesOf clause with
  | [] => text ";"
  | ps =>
      hardBreak ++ outdent ++ text "where" ++ hardBreak
        ++ ((withLast ps).map fun (p, last) =>
            predicate lay p ++ if last then text ";" else text "," ++ hardBreak).flatten

/-- A clause within a line; `ending` stands behind it. -/
def clauseInLine (lay : Tree → Commands) (clause : Option Tree) (ending : String) : Commands :=
  match predicatesOf clause with
  | [] => text (if ending == "" then " " else ending)
  | ps =>
      space ++ outdent ++ text "where" ++ space
        ++ ((withLast ps).map fun (p, last) =>
            predicate lay p
              ++ if last && ending != "" then text ending else trailingCommaOrSpace last).flatten
        ++ (if ending == "" then outdent else [])

end LogInterface.Layout
