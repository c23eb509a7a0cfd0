/-
# Parser.File -- whole texts

`Grammar.ofDepth` ties the knot of the grammar for a bounded nesting; the number
of tokens bounds how deep a text can nest.  `SourceFile.ofSource` reads a file,
`parseAll` any part of the grammar from all tokens of a text.
-/
import LogInterface.Parser.Item

namespace LogInterface

open LogInterface.Text

set_option autoImplicit false

/-- A grammar that nests one level deeper. -/
def Grammar.deeper (g : Grammar) : Grammar where
  type := Parser.typeOf g
  bound := Parser.boundOf g
  pattern := Parser.patternOf g
  expression := Parser.expressionOf g
  unary := Parser.unaryOf g
  early := Parser.earlyOf g
  statements := Parser.statementsOf g
  item := Parser.itemOf g
  laidOut := g.laidOut

def Grammar.ofDepth (laidOut : Bool) (depth : Nat) : Grammar :=
  Nat.repeat Grammar.deeper depth (.nothing laidOut)

def Grammar.ofTokens (laidOut : Bool) (tokens : List Token) : Grammar :=
  .ofDepth laidOut (6 * Token.countAll tokens + 16)

/-- Runs a part of the grammar on all tokens of a text, whose end is no place. -/
def parseAll {α : Type} (p : Grammar → Parser α) (tokens : List Token) : Except ParseError α :=
  Parser.onAll (p (.ofTokens false tokens)) tokens .nowhere

def TraitDecl.ofTokens (tokens : List Token) : Except ParseError TraitDecl :=
  parseAll Parser.traitDecl tokens

def Tree.pathOfTokens (tokens : List Token) : Except ParseError Tree :=
  parseAll (Parser.path · false) tokens

def Ident.ofTokens (tokens : List Token) : Except ParseError Ident :=
  parseAll (fun _ => Parser.name) tokens

/-! ## Files -/

def Parser.fileContent (g : Grammar) : Parser SourceFile := do
  let attributes ← Parser.innerAttributes g
  return ⟨attributes, ← Parser.many (Parser.itemHere g)⟩

/-- A file from its tokens, for writing it as tokens or for laying it out. -/
def SourceFile.ofTokens (laidOut : Bool) (tokens : List Token) : Except ParseError SourceFile :=
  Parser.onAll (Parser.fileContent (.ofTokens laidOut tokens)) tokens .nowhere

/-- Behind white space and plain comments. -/
def skipBlanks : (fuel : Nat) → List Char → List Char
  | 0, cs => cs
  | fuel + 1, cs =>
      match Lexer.skipLength cs with
      | some n => if n = 0 then cs else skipBlanks fuel (cs.drop n)
      | none => cs

/-- A text without a first line for the system's loader.  The mark that starts
such a line can start an attribute too. -/
def dropLoaderLine (cs : List Char) : List Char :=
  match cs with
  | '#' :: '!' :: rest =>
      if (skipBlanks rest.length rest).head? = some '[' then cs else cs.dropWhile (· ≠ '\n')
  | _ => cs

/-- What is said of a text that is no sequence of tokens. -/
def noTokens : String := "cannot parse string into token stream"

def SourceFile.ofSource (source : String) : Except ParseError SourceFile := do
  let cs := match source.toList with
    | c :: cs => if c = byteOrderMark then cs else c :: cs
    | [] => []
  match Token.ofSource (String.ofList (dropLoaderLine cs)) with
  | .error place => throw ⟨place, .rule noTokens, false⟩
  | .ok tokens => SourceFile.ofTokens false tokens

end LogInterface
