/-
# Layout.Statement -- statements

Each statement ends its line.  A semicolon is put behind an expression that leaves
the block, and dropped behind a loop or an `if` that needs none.
-/
import LogInterface.Layout.Expression

namespace LogInterface.Layout

set_option autoImplicit false

def dropsSemicolon (e : Tree) : Bool :=
  e.bare.is .forLoop || e.bare.is .whileLoop || lacksElse e.bare

/-- What stands behind an equals sign, and what to do where the pattern does not
match it. -/
def initialValue (lay : Tree → Commands) (value orElse : Tree) : Commands :=
  match value, orElse with
  | .node .list [_, e], .node .list [_, .node .block [_, block]] =>
      text " = " ++ neverBreak ++ lay e ++ space ++ text "else " ++ close ++ neverBreak
        ++ boxedBlock lay (start lay) block
  | .node .list [_, e], _ => text " = " ++ neverBreak ++ lay e ++ close
  | _, _ => close

def statement (lay : Tree → Commands) : Tree → Commands
  | .node .letStmt [attributes, _, p, typed, value, orElse, _] =>
      attributesBefore lay attributes ++ ibox 0 ++ text "let " ++ lay p
        ++ (match typed with
            | .node .list [_, t] => text ": " ++ lay t
            | _ => [])
        ++ initialValue lay value orElse ++ text ";" ++ hardBreak
  | .node .exprStmt [e, .node .list semicolon] =>
      let ending := if semicolon.isEmpty then takesSemicolon e else !dropsSemicolon e
      ibox 0 ++ start lay e ++ (if ending then text ";" else []) ++ close ++ hardBreak
  | .node .invocationStmt [attributes, call, .node .list semicolon] =>
      attributesBefore lay attributes ++ lay call
        ++ (if semicolon.isEmpty then [] else text ";") ++ hardBreak
  | .node .emptyStmt _ => []
  | t => expression lay t

end LogInterface.Layout
