/-
# Layout.Call -- macro calls and macro rules

The tokens of a macro call stand on as few lines as fit, with blanks where a
reader expects them: `callStep` tells from the tokens before whether there is one.
The rules of a `macro_rules!` stand on lines of their own, each a pattern of
tokens and what it stands for.
-/
import LogInterface.Layout.Engine
import LogInterface.Token.Basic

namespace LogInterface.Layout

set_option autoImplicit false

/-! ## Blanks between tokens -/

/-- What the token before was, as far as blanks depend on it. -/
inductive CallState where
  | start | dollar | dollarCrate | dollarName | dollarColon | dollarGroup | dollarSeparator
  | pound | poundBang | point | colon | colons | word | wordBang | group | other
  deriving DecidableEq

def spacedWords : List String :=
  ["as", "async", "await", "box", "break", "const", "continue", "crate", "dyn", "else", "enum",
   "extern", "fn", "for", "if", "impl", "in", "let", "loop", "macro", "match", "mod", "move",
   "mut", "pub", "ref", "return", "static", "struct", "trait", "type", "unsafe", "use",
   "where", "while", "yield"]

/-- A group behind other tokens: is there a blank, and what does it leave behind? -/
def groupStep (state : CallState) : Delimiter → Bool × CallState
  | .parenthesis =>
      if state = .dollar then (false, .dollarGroup)
      else if state = .word then (false, .group)
      else if state = .wordBang then (false, .other)
      else (true, .group)
  | .bracket =>
      if state = .pound || state = .poundBang then (false, .other)
      else if state = .word then (false, .group)
      else if state = .wordBang then (false, .other)
      else (true, .group)
  | .brace => (true, .other)

/-- A word behind other tokens.  Only a pattern gives meaning to the kind of what
it matches. -/
def wordStep (pattern : Bool) (state : CallState) (s : String) : Bool × CallState :=
  if state = .dollar then
    (false, if pattern then .dollarName else if s == "crate" then .dollarCrate else .other)
  else if state = .dollarColon then (false, .other)
  else if state = .dollarGroup then (false, .dollarSeparator)
  else if spacedWords.contains s then (true, .other)
  else (state ≠ .point && state ≠ .colons, .word)

def literalStep (state : CallState) (s : String) : Bool × CallState :=
  if state = .dollarGroup then (false, .dollarSeparator)
  else (state ≠ .point, if s.endsWith "." then .other else .word)

def punctStep (pattern : Bool) (state : CallState) (c : Char) (spacing : Spacing) :
    Bool × CallState :=
  let alone := spacing = .alone
  if state = .dollarName && c = ':' && alone then (false, .dollarColon)
  else if state = .dollarGroup && alone && "+*?".toList.contains c then (false, .other)
  else if state = .dollarGroup then (false, if alone then .dollarSeparator else .dollarGroup)
  else if state = .dollarSeparator && "+*".toList.contains c then (false, .other)
  else if state = .pound && c = '!' then (false, .poundBang)
  else if state = .word && c = '!' && alone then (false, .wordBang)
  else if state = .colon && c = ':' then (false, .colons)
  else if c = ',' || c = ';' then (false, .other)
  else if c = '.' && !pattern then (state ≠ .word && state ≠ .group, .point)
  else if c = ':' && !alone then (state ≠ .word && state ≠ .dollarCrate, .colon)
  else if c = '$' then (true, .dollar)
  else if c = '#' then (true, .pound)
  else (true, .other)

/-- Is there a blank before a token, and what does it leave behind? -/
def callStep (pattern : Bool) (state : CallState) : Token → Bool × CallState
  | .group d _ _ _ => groupStep state d
  | .ident s _ => wordStep pattern state s
  | .literal s _ => literalStep state s
  | .punct c spacing _ => punctStep pattern state c spacing

def joins : Token → Bool
  | .punct c spacing _ => spacing = .joint || c = '$'
  | _ => false

mutual

/-- One token of a macro call, or of a pattern of tokens. -/
def callToken (pattern : Bool) : Token → Commands
  | .ident s _ => text s
  | .literal s _ => text s
  | .punct c _ _ => text (String.singleton c)
  | .group d content _ _ =>
      let edge := if d = .brace && !content.isEmpty then space else []
      text (String.singleton d.opening) ++ edge ++ callTokens pattern true .start content ++ edge
        ++ text (String.singleton d.closing)

/-- Tokens of a macro call; `joined` if no blank may stand before the first. -/
def callTokens (pattern joined : Bool) (state : CallState) : List Token → Commands
  | [] => []
  | t :: ts =>
      let (blank, next) := callStep pattern state t
      let gap :=
        if joined then []
        else if blank then space
        else match t with
          | .punct '.' _ _ => zeroBreak
          | _ => []
      gap ++ callToken pattern t ++ callTokens pattern (joins t) next ts

end

/-! ## Calls -/

/-- Tokens between brackets, with a break at both edges. -/
def callContent (pattern : Bool) (edge : Commands) (content : List Token) : Commands :=
  if content.isEmpty then []
  else
    cbox indentation ++ edge ++ ibox 0 ++ callTokens pattern true .start content ++ close ++ edge
      ++ outdent ++ close

/-- The brackets of a macro call and what they hold. -/
def callGroup (d : Delimiter) (content : List Token) : Commands :=
  text (if d = .brace then " \x7b" else String.singleton d.opening)
    ++ callContent false (if d = .brace then hardBreak else zeroBreak) content
    ++ text (String.singleton d.closing)

/-! ## Rules -/

def rulePattern (d : Delimiter) (pattern : List Token) : Commands :=
  text (String.singleton d.opening) ++ callContent true zeroBreak pattern
    ++ text (String.singleton d.closing)

/-- The rules of a macro: a pattern, an arrow, and what it stands for.  The last
one may lack what stands behind its pattern. -/
def macroRules : List Token → Commands
  | .group d pattern _ _ :: .punct '=' _ _ :: .punct '>' _ _ :: .group _ content _ _ :: rest =>
      rulePattern d pattern ++ text " => \x7b" ++ neverBreak
        ++ callContent false hardBreak content ++ text "\x7d;" ++ hardBreak
        ++ (match rest with
            | .punct ';' _ _ :: rest => macroRules rest
            | rest => macroRules rest)
  | .group d pattern _ _ :: rest =>
      rulePattern d pattern ++ (if rest.isEmpty then [] else text " =>") ++ hardBreak
  | _ => []

def macroDeclaration (name : String) (rules : List Token) : Commands :=
  text "macro_rules! " ++ text name ++ text " \x7b" ++ cbox indentation ++ hardBreakIfMore
    ++ macroRules rules ++ outdent ++ close ++ text "\x7d"

end LogInterface.Layout
