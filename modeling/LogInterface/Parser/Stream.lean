/-
# Parser.Stream -- reading tokens

A `Parser` reads from the front of a `Stream` and answers a value or the first
`ParseError`.  What is inside a group is read with `inside`: there the input
ends at the closing bracket, and a token that is left over is noted and refused
only when everything else was read.  `insideOpen` puts that note off, for groups
that stay open while what follows them is read.

* The `starts…` functions look at the tokens ahead and read nothing.
* An operator is read one character at a time, so `>>` can close two brackets.
* `separated` and `chained` read lists and keep the separators.
-/
import LogInterface.Source.Tree
import LogInterface.Token.Literal

namespace LogInterface

set_option autoImplicit false

/-! ## Errors -/

/-- What is wrong with the token at hand. -/
inductive Complaint where
  /-- The input should have ended, or the bracket around it should have closed. -/
  | leftover (bracket : Option Delimiter)
  /-- None of these comes next. -/
  | expected (choices : List String)
  /-- A keyword stands where a name has to. -/
  | keyword (found : String)
  /-- A rule of its own. -/
  | rule (text : String)
  deriving DecidableEq, Repr

def Complaint.text : Complaint → String
  | .leftover none => "unexpected token"
  | .leftover (some d) => "unexpected token, expected `" ++ String.singleton d.closing ++ "`"
  | .expected [] => "unexpected token"
  | .expected [a] => "expected " ++ a
  | .expected [a, b] => "expected " ++ a ++ " or " ++ b
  | .expected choices => "expected one of: " ++ ", ".intercalate choices
  | .keyword found => "expected identifier, found keyword `" ++ found ++ "`"
  | .rule text => text

/-- A complaint, where it arose, and whether the input ended there. -/
structure ParseError where
  place : Place
  complaint : Complaint
  atEnd : Bool := false
  deriving DecidableEq, Repr

def ParseError.message (e : ParseError) : String :=
  match e.atEnd, e.complaint with
  | false, c => c.text
  | true, .expected [] => "unexpected end of input"
  | true, c => "unexpected end of input, " ++ c.text

/-- A word or an operator as error messages quote it. -/
def quoted (text : String) : String := "`" ++ text ++ "`"

/-- A string literal: how it is written, the text it denotes, and its place. -/
structure StringLiteral where
  written : String
  value : String
  place : Place

/-! ## Streams -/

/-- The tokens ahead, where their end is reported, and the token that was noted
first as left over, with the bracket around it. -/
structure Stream where
  tokens : List Token
  ending : Place
  leftover : Option (Place × Delimiter) := none

/-- Reads a value from a stream. -/
abbrev Parser (α : Type) := StateT Stream (Except ParseError) α

namespace Parser

def ahead : Parser (List Token) := do return (← get).tokens

def here : Parser Place := do
  let s ← get
  return (s.tokens.head?.map Token.place).getD s.ending

/-- Fails with a complaint about a place. -/
def failAt {α : Type} (p : Place) (c : Complaint) : Parser α := throw ⟨p, c, false⟩

/-- Fails with a complaint about the next token. -/
def failHere {α : Type} (c : Complaint) : Parser α := do
  throw ⟨← here, c, (← get).tokens.isEmpty⟩

/-- Fails because none of the choices comes next. -/
def failExpecting {α : Type} (choices : List String) : Parser α := failHere (.expected choices)

/-- Goes on behind the tokens that were read. -/
def advance (rest : List Token) : Parser Unit := modify fun s => { s with tokens := rest }

/-- The value of a parser, or nothing read if it fails. -/
def attempt {α : Type} (p : Parser α) : Parser (Option α) := fun s =>
  match p s with
  | .ok (a, s) => .ok (some a, s)
  | .error _ => .ok (none, s)

/-- Runs a parser on all tokens of a text. -/
def onAll {α : Type} (p : Parser α) (tokens : List Token) (ending : Place) :
    Except ParseError α := do
  let (a, s) ← p.run { tokens, ending }
  match s.leftover, s.tokens with
  | some (place, d), _ => throw ⟨place, .leftover (some d), false⟩
  | none, t :: _ => throw ⟨t.place, .leftover none, false⟩
  | none, [] => return a

/-! ## Looking ahead -/

/-- What follows the next token; a lifetime counts as one. -/
def skip : List Token → List Token
  | .punct '\'' .joint _ :: .ident _ _ :: rest => rest
  | _ :: rest => rest
  | [] => []

def startsWord (word : String) : List Token → Bool
  | .ident text _ :: _ => text == word
  | _ => false

/-- Do the characters of an operator come next?  All but the last have to be
joint; a lifetime is no operator. -/
def startsChars : List Char → List Token → Bool
  | [c], .punct d _ _ :: _ => c == d && d != '\''
  | c :: cs, .punct d spacing _ :: rest =>
      c == d && d != '\'' && spacing = .joint && startsChars cs rest
  | _, _ => false

def startsOperator (op : String) (ts : List Token) : Bool := startsChars op.toList ts

/-- Does a group with this bracket come next? -/
def startsGroup (d : Delimiter) : List Token → Bool
  | .group e _ _ _ :: _ => d = e
  | _ => false

def startsLifetime : List Token → Bool
  | .punct '\'' .joint _ :: .ident _ _ :: _ => true
  | _ => false

/-- Words that are no names. -/
def keywords : List String :=
  ["_", "abstract", "as", "async", "await", "become", "box", "break", "const", "continue",
   "crate", "do", "dyn", "else", "enum", "extern", "false", "final", "fn", "for", "if", "impl",
   "in", "let", "loop", "macro", "match", "mod", "move", "mut", "override", "priv", "pub", "ref",
   "return", "Self", "self", "static", "struct", "super", "trait", "true", "try", "type",
   "typeof", "unsafe", "unsized", "use", "virtual", "where", "while", "yield"]

def startsName : List Token → Bool
  | .ident text _ :: _ => !keywords.contains text
  | _ => false

/-- Does a name or a keyword come next? -/
def startsAnyWord : List Token → Bool
  | .ident _ _ :: _ => true
  | _ => false

/-- Does a literal come next?  A minus sign belongs to the number behind it. -/
def startsLiteral : List Token → Bool
  | .literal _ _ :: _ => true
  | .ident text _ :: _ => text == "true" || text == "false"
  | .punct '-' _ _ :: .literal text _ :: _ => Literal.isNumber text
  | _ => false

/-- Does a whole number come next? -/
def startsInteger : List Token → Bool
  | .literal text _ :: _ => (Literal.integer? text).isSome
  | .punct '-' _ _ :: .literal text _ :: _ => (Literal.integer? text).isSome
  | _ => false

/-- Does a number with a point or an exponent come next? -/
def startsFloat : List Token → Bool
  | .literal text _ :: _ => Literal.isFloat text
  | .punct '-' _ _ :: .literal text _ :: _ => Literal.isFloat text
  | _ => false

/-- Does a string literal come next? -/
def startsString : List Token → Bool
  | .literal text _ :: _ => (Literal.string? text).isSome
  | _ => false

/-- Words that are names only within a path. -/
def pathWords : List String := ["super", "self", "Self", "crate"]

/-- Does one of these words come next? -/
def startsOneOf (words : List String) (ts : List Token) : Bool := words.any (startsWord · ts)

/-! ## Single tokens -/

def word (w : String) : Parser Place := do
  match ← ahead with
  | .ident text p :: rest => if text == w then advance rest; return p else failExpecting [quoted w]
  | _ => failExpecting [quoted w]

/-- Reads a keyword if it comes next. -/
def word? (w : String) : Parser (Option Place) := do
  if startsWord w (← ahead) then some <$> word w else return none

/-- Reads an operator.  Where it is missing the message does not say that the
input ended. -/
def operator (op : String) : Parser (List Token) := do
  let p ← here
  let ts ← ahead
  if startsOperator op ts then
    advance (ts.drop op.length)
    return Token.operatorAt p op.toList
  else failAt p (.expected [quoted op])

/-- Reads an operator if it comes next. -/
def operator? (op : String) : Parser (List Token) := do
  if startsOperator op (← ahead) then operator op else return []

def name : Parser Ident := do
  match ← ahead with
  | .ident text p :: rest =>
      if keywords.contains text then failHere (.keyword text)
      else advance rest; return ⟨text, p⟩
  | _ => failExpecting ["identifier"]

/-- Reads a name or a keyword. -/
def anyWord : Parser Ident := do
  match ← ahead with
  | .ident text p :: rest => advance rest; return ⟨text, p⟩
  | _ => failExpecting ["identifier"]

def lifetime : Parser Tree := do
  match ← ahead with
  | .punct '\'' .joint p :: .ident text q :: rest =>
      advance rest
      return .node .lifetime [.token (.punct '\'' .joint p), .token (.ident text q)]
  | _ => failExpecting ["lifetime"]

/-- Reads a lifetime if one comes next. -/
def lifetime? : Parser Tree := do
  if startsLifetime (← ahead) then lifetime else return .absent

def literal : Parser Tree := do
  match ← ahead with
  | .literal text p :: rest =>
      advance rest
      return .node .literal [.token (.literal text p)]
  | .ident text p :: rest =>
      if text == "true" || text == "false" then
        advance rest
        return .node .literal [.token (.ident text p)]
      else failExpecting ["literal"]
  | .punct '-' _ p :: .literal text _ :: rest =>
      if Literal.isNumber text then
        advance rest
        return .node .literal [.token (.punct '-' .alone p), .token (.literal text p)]
      else failExpecting ["literal"]
  | _ => failExpecting ["literal"]

def string : Parser StringLiteral := do
  match ← ahead with
  | .literal text p :: rest =>
      match Literal.string? text with
      | some value => advance rest; return ⟨text, value, p⟩
      | none => failExpecting ["string literal"]
  | _ => failExpecting ["string literal"]

/-! ## Groups -/

/-- What error messages call a bracket. -/
def bracketName : Delimiter → String
  | .parenthesis => "parentheses"
  | .brace => "curly braces"
  | .bracket => "square brackets"

/-- What was read inside a group, its brackets, and what was left over in it. -/
structure Inside (α : Type) where
  value : α
  opens : Place
  closes : Place
  leftover : Option (Place × Delimiter)

/-- Reads the content of a group and does not note yet what is left over. -/
def insideOpen {α : Type} (d : Delimiter) (p : Parser α) : Parser (Inside α) := do
  match ← ahead with
  | .group e content opens closes :: rest =>
      if d = e then
        let outer ← get
        set { outer with tokens := content, ending := closes }
        let value ← p
        let inner ← get
        set { inner with tokens := rest, ending := outer.ending }
        return ⟨value, opens, closes, inner.tokens.head?.map fun t => (t.place, d)⟩
      else failExpecting [bracketName d]
  | _ => failExpecting [bracketName d]

/-- Notes what was left over in a group, unless something was noted before. -/
def Inside.finish {α : Type} (i : Inside α) : Parser Unit :=
  modify fun s => { s with leftover := s.leftover <|> i.leftover }

/-- Reads the content of a group. -/
def inside {α : Type} (d : Delimiter) (p : Parser α) : Parser (Inside α) := do
  let i ← insideOpen d p
  i.finish
  return i

/-- The group around the trees that were read. -/
def Inside.tree (i : Inside (List Tree)) (d : Delimiter) : Tree := .group d i.opens i.closes i.value

def grouped (d : Delimiter) (p : Parser (List Tree)) : Parser Tree :=
  return (← inside d p).tree d

/-- Reads a group and leaves its content as it is. -/
def rawGroup : Parser Tree := do
  match ← ahead with
  | .group d content opens closes :: rest =>
      advance rest
      return .group d opens closes (Tree.ofTokens content)
  | _ => failExpecting ["delimiter"]

/-! ## Lists -/

/-- How many steps a loop over the tokens ahead can take. -/
def steps : Parser Nat := return (← ahead).length + 1

/-- Elements with a separator between each two, until `stop` holds; a separator
may end them. -/
def separatedWithin (stop : List Token → Bool) (element : Parser Tree) (separator : String) :
    (fuel : Nat) → Parser (List Tree)
  | 0 => return []
  | fuel + 1 => do
      if stop (← ahead) then return []
      let x ← element
      if stop (← ahead) then return [x]
      let s ← operator separator
      return x :: Tree.ofTokens s ++ (← separatedWithin stop element separator fuel)

/-- Elements with a separator between each two, until `stop` holds. -/
def separated (stop : List Token → Bool) (element : Parser Tree) (separator : String) :
    Parser (List Tree) := do
  separatedWithin stop element separator (← steps)

/-- Elements with commas between them, to the end. -/
def commaSeparated (element : Parser Tree) : Parser (List Tree) :=
  separated List.isEmpty element ","

/-- One element, and more of them as long as a separator and then an element follow. -/
def chainedWithin (go : List Token → Bool) (element : Parser Tree) (separator : String) :
    (fuel : Nat) → Parser (List Tree)
  | 0 => return []
  | fuel + 1 => do
      let x ← element
      let s ← operator? separator
      if s.isEmpty then return [x]
      if go (← ahead) then
        return x :: Tree.ofTokens s ++ (← chainedWithin go element separator fuel)
      else return x :: Tree.ofTokens s

/-- One element, and more of them as long as a separator and then an element follow. -/
def chained (go : List Token → Bool) (element : Parser Tree) (separator : String) :
    Parser (List Tree) := do
  chainedWithin go element separator (← steps)

/-- Elements until the input ends. -/
def manyWithin {α : Type} (element : Parser α) : (fuel : Nat) → Parser (List α)
  | 0 => return []
  | fuel + 1 => do
      if (← ahead).isEmpty then return []
      let x ← element
      return x :: (← manyWithin element fuel)

/-- Elements until the input ends. -/
def many {α : Type} (element : Parser α) : Parser (List α) := do
  manyWithin element (← steps)

end Parser

end LogInterface
