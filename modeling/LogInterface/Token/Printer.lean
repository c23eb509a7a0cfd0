/-
# Token.Printer -- token trees as text

Tokens are separated by one blank, except after a joint punctuation character.
Braces keep a blank on their inside, the other brackets do not.
-/
import LogInterface.Token.Basic

namespace LogInterface.Token

set_option autoImplicit false

mutual

def text : Token → String
  | .ident text _ => text
  | .punct c _ _ => String.singleton c
  | .literal text _ => text
  | .group .parenthesis content _ _ => "(" ++ textAll content ++ ")"
  | .group .bracket content _ _ => "[" ++ textAll content ++ "]"
  | .group .brace [] _ _ => "\x7b \x7d"
  | .group .brace content _ _ => "\x7b " ++ textAll content ++ " \x7d"

/-- The text of a list of token trees. -/
def textAll : List Token → String
  | [] => ""
  | [t] => t.text
  | .punct c .joint _ :: ts => String.singleton c ++ textAll ts
  | t :: ts => t.text ++ " " ++ textAll ts

end

end LogInterface.Token
