/-
# Layout.Attribute -- attributes and documentation

Documentation is laid out as a comment where it can be one: a single line after
slashes, several lines as a block.  Other attributes keep their tokens, with
blanks between words and around an equals sign; `lay` lays out the value behind
the sign.
-/
import LogInterface.Layout.Engine
import LogInterface.Parser.Stream
import LogInterface.Source.Tokens
import LogInterface.Token.Literal
import LogInterface.Token.Printer

namespace LogInterface.Layout

open LogInterface.Text

set_option autoImplicit false

/-! ## Tokens of attributes -/

/-- What the token before was. -/
inductive AfterToken where
  | word
  | punct
  | finalComma
  deriving DecidableEq

def betweenWords : AfterToken → Commands
  | .word => space
  | _ => []

def attributePunct (state : AfterToken) (c : Char) (last : Bool) : Commands × AfterToken :=
  let before := if state = .word && c = '=' then text " " else []
  if c = ',' && last then (before ++ trailingComma true, .finalComma)
  else
    let after := if c = '=' then text " " else if c = ',' then space else []
    (before ++ text (String.singleton c) ++ after, .punct)

mutual

def attributeToken (state : AfterToken) (last : Bool) : Token → Commands × AfterToken
  | .ident s _ => (betweenWords state ++ text s, .word)
  | .literal s _ => (betweenWords state ++ text s, .word)
  | .punct c _ _ => attributePunct state c last
  | .group .parenthesis content _ _ =>
      let (inside, state) := attributeTokens .punct content
      let ending := if state = .finalComma then [] else zeroBreak
      (text "(" ++ cbox indentation ++ zeroBreak ++ inside ++ ending ++ outdent ++ close
        ++ text ")", .punct)
  | .group d content _ _ =>
      (text (String.singleton d.opening) ++ (attributeTokens .punct content).1
        ++ text (String.singleton d.closing), .punct)

def attributeTokens (state : AfterToken) : List Token → Commands × AfterToken
  | [] => ([], state)
  | t :: ts =>
      let (first, state) := attributeToken state ts.isEmpty t
      let (rest, state) := attributeTokens state ts
      (first ++ rest, state)

end

/-! ## Documentation -/

/-- Do the comment marks in the text pair? -/
def pairsComments : (depth : Nat) → List Char → Bool
  | depth, '/' :: '*' :: cs => pairsComments (depth + 1) cs
  | depth, '*' :: '/' :: cs => if depth = 0 then false else pairsComments (depth - 1) cs
  | depth, _ :: cs => pairsComments depth cs
  | depth, [] => depth = 0

/-- Can the text stand in a block comment?  A slash at its end would join the mark
that closes the comment. -/
def standsInBlock (cs : List Char) : Bool :=
  pairsComments 0 cs && cs.getLast? != some '/'

def trimBlanks (cs : List Char) : List Char := dropEndWhile (· = ' ') cs

def linesOf : List Char → List (List Char)
  | [] => [[]]
  | c :: cs =>
      match linesOf cs with
      | [] => [[c]]
      | line :: lines => if c = '\n' then [] :: line :: lines else (c :: line) :: lines

/-- Without the blanks at the end of each line but the last. -/
def trimInside (cs : List Char) : List Char :=
  joinWith ['\n'] ((withLast (linesOf cs)).map fun (line, last) =>
    if last then line else trimBlanks line)

/-- The string that an attribute of this name gives. -/
def attributeString? (a : Attribute) (name : String) : Option (List Char) :=
  match a.rooted, a.path, a.input with
  | false, [i], .value (.node .literal [.token (.literal written _)]) =>
      if i.text == name then (Literal.string? written).map String.toList else none
  | _, _, _ => none

/-- How a comment of some sort starts, on one line and as a block. -/
structure CommentMarks where
  line : String
  block : String
  /-- What its text may not start with on one line. -/
  notLine : List Char
  /-- What its text may not start with in a block. -/
  notBlock : List Char

/-- The marks of documentation in front of an item. -/
def outerDoc : CommentMarks := ⟨"///", "/**", ['/'], ['*', '/']⟩

/-- The marks of documentation inside an item. -/
def innerDoc : CommentMarks := ⟨"//!", "/*!", [], []⟩

def plainComment : CommentMarks := ⟨"//", "/*", [], ['*', '!']⟩

def comment? (marks : CommentMarks) (cs : List Char) : Option Commands :=
  let starts (forbidden : List Char) : Bool := cs.head?.any forbidden.contains
  if !cs.contains '\n' && !starts marks.notLine then
    some (text marks.line ++ text (String.ofList (trimBlanks cs)) ++ hardBreak)
  else if standsInBlock cs && !starts marks.notBlock then
    some (text marks.block ++ text (String.ofList (trimInside cs)) ++ text "*/" ++ hardBreak)
  else none

/-! ## Attributes -/

def attributeContent (lay : Tree → Commands) (a : Attribute) : Commands :=
  let path := "::".intercalate (a.path.map Ident.text)
  let path := if a.rooted then "::" ++ path else path
  match a.input with
  | .nothing => text path
  | .list d content opens closes =>
      text path ++ (attributeToken .punct true (.group d content opens closes)).1
  | .value e => text path ++ text " = " ++ lay e

/-- One attribute, and what separates it from what follows. -/
def attributeLine (lay : Tree → Commands) (a : Attribute) : Commands :=
  let asComment :=
    match attributeString? a "doc" with
    | some cs => comment? (if a.inner then innerDoc else outerDoc) cs
    | none => (attributeString? a "comment").bind (comment? plainComment)
  asComment.getD
    (text (if a.inner then "#!" else "#") ++ text "["
      ++ attributeContent lay a ++ text "]" ++ space)

def outerAttributes (lay : Tree → Commands) (as : List Attribute) : Commands :=
  ((as.filter (!·.inner)).map (attributeLine lay)).flatten

def innerAttributes (lay : Tree → Commands) (as : List Attribute) : Commands :=
  ((as.filter (·.inner)).map (attributeLine lay)).flatten

def attributesOf : Tree → List Attribute
  | .node .attributes children =>
      children.filterMap fun t =>
        match t with
        | .attribute a => some a
        | _ => none
  | _ => []

end LogInterface.Layout
