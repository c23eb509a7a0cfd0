/-
# Token.Code -- writing generated source

Generated source is written as words with blanks between them: `code` makes
identifiers of the words that start like one and operators of the others.
-/
import LogInterface.Text.Escape
import LogInterface.Text.Identifier
import LogInterface.Token.Basic

namespace LogInterface.Token

open LogInterface.Text

set_option autoImplicit false

/-- The words of a text with single blanks between them. -/
def splitWords : List Char → List (List Char)
  | [] => [[]]
  | c :: cs =>
      match splitWords cs with
      | [] => [[c]]
      | word :: words => if c = ' ' then [] :: word :: words else (c :: word) :: words

def ofWord : List Char → List Token
  | [] => []
  | c :: cs =>
      if isIdentStart c then [word (String.ofList (c :: cs))] else operatorAt .nowhere (c :: cs)

/-- Generated source, with a blank between each two words. -/
def code (text : String) : List Token := (splitWords text.toList).flatMap ofWord

def parens (ts : List Token) : List Token := [wrap .parenthesis ts]

def braces (ts : List Token) : List Token := [wrap .brace ts]

def square (ts : List Token) : List Token := [wrap .bracket ts]

/-- Lists of tokens with a comma between each two. -/
def commas (ts : List (List Token)) : List Token := joinWith (operator ",") ts

def stringLiteral (s : String) : List Token := [.literal (quotedLiteral s) .nowhere]

def number (n : Nat) : List Token := [.literal (Nat.repr n) .nowhere]

def marker (ts : List Token) : List Token := operator "#" ++ square ts

def documentation (s : String) : List Token := marker (code "doc =" ++ stringLiteral s)

/-- A documentation attribute whose text is a raw literal. -/
def rawDocumentation (s : String) : List Token :=
  marker (code "doc =" ++ [.literal ("r\"" ++ s ++ "\"") .nowhere])

/-- An attribute that switches warnings off. -/
def allow (lints : List String) : List Token :=
  marker (code "allow" ++ parens (commas (lints.map fun l => [word l])))

/-- The lifetime that is left to the compiler. -/
def someLifetime : List Token := [.punct '\'' .joint .nowhere, word "_"]

end LogInterface.Token
