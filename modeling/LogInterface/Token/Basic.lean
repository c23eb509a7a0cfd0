/-
# Token.Basic -- token trees

Source text is read as a list of tokens in which every bracketed part is one
`Token.group`.  A token knows the place where it starts; generated tokens stand
`nowhere`.

A punctuation character is `joint` when it belongs together with the one after
it; `word` and `operator` build the tokens of generated source, where a
multi-character operator is joint inside and stands alone at its end.
-/
namespace LogInterface

set_option autoImplicit false

/-- A line, counted from one, and a column, counted in characters from zero. -/
structure Place where
  line : Nat
  column : Nat
  deriving DecidableEq, Repr, Inhabited

/-- The place of what was not read from the text, and of its end. -/
def Place.nowhere : Place := ⟨1, 0⟩

def Place.next (p : Place) (c : Char) : Place :=
  if c = '\n' then ⟨p.line + 1, 0⟩ else ⟨p.line, p.column + 1⟩

def Place.after (p : Place) (cs : List Char) : Place := cs.foldl Place.next p

/-- Does a punctuation character go together with the next one? -/
inductive Spacing where
  | alone
  | joint
  deriving DecidableEq, Repr

/-- The three kinds of brackets. -/
inductive Delimiter where
  | parenthesis
  | brace
  | bracket
  deriving DecidableEq, Repr

def Delimiter.opening : Delimiter → Char
  | .parenthesis => '('
  | .brace => '\x7b'
  | .bracket => '['

def Delimiter.closing : Delimiter → Char
  | .parenthesis => ')'
  | .brace => '\x7d'
  | .bracket => ']'

/-- A token tree. -/
inductive Token where
  | ident (text : String) (place : Place)
  | punct (char : Char) (spacing : Spacing) (place : Place)
  | literal (text : String) (place : Place)
  | group (delimiter : Delimiter) (content : List Token) (opens closes : Place)
  deriving Inhabited, Repr

def Token.place : Token → Place
  | .ident _ p => p
  | .punct _ _ p => p
  | .literal _ p => p
  | .group _ _ p _ => p

mutual

/-- How many tokens a tree holds, every group counted once with its content. -/
def Token.count : Token → Nat
  | .group _ content _ _ => 1 + countAll content
  | _ => 1

/-- How many tokens a list of trees holds. -/
def Token.countAll : List Token → Nat
  | [] => 0
  | t :: ts => t.count + countAll ts

end

mutual

/-- The token as if every part of it had been read at one place. -/
def Token.moveTo (p : Place) : Token → Token
  | .ident text _ => .ident text p
  | .punct c s _ => .punct c s p
  | .literal text _ => .literal text p
  | .group d content _ _ => .group d (moveAllTo p content) p p

/-- The tokens as if every part of them had been read at one place. -/
def Token.moveAllTo (p : Place) : List Token → List Token
  | [] => []
  | t :: ts => t.moveTo p :: moveAllTo p ts

end

/-! ## Building tokens -/

namespace Token

/-- A generated identifier or keyword. -/
def word (text : String) : Token := .ident text .nowhere

/-- The characters of an operator, of which the first was read at `p`. -/
def operatorAt (p : Place) : List Char → List Token
  | [] => []
  | [c] => [.punct c .alone p]
  | c :: cs => .punct c .joint p :: operatorAt p cs

def operator (text : String) : List Token := operatorAt .nowhere text.toList

def wrap (d : Delimiter) (content : List Token) : Token := .group d content .nowhere .nowhere

end Token

/-- Items with a token list between each two. -/
def joinWith {α : Type} (separator : List α) : List (List α) → List α
  | [] => []
  | [x] => x
  | x :: xs => x ++ separator ++ joinWith separator xs

end LogInterface
