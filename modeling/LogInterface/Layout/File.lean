/-
# Layout.File -- the text of a file

`layoutTree` lays out a tree of bounded depth, and `SourceFile.text` writes a file.
-/
import LogInterface.Layout.Item

namespace LogInterface

open Layout

set_option autoImplicit false

def layoutTree : (depth : Nat) → Tree → Commands
  | 0, _ => []
  | depth + 1, t => Layout.item (layoutTree depth) t

def SourceFile.layout (f : SourceFile) : Commands :=
  let depth := 8 * Token.countAll f.tokens + 8
  cbox 0 ++ innerAttributes (layoutTree depth) f.attributes
    ++ (f.items.map (layoutTree depth)).flatten ++ close

def SourceFile.text (f : SourceFile) : String := render f.layout

end LogInterface
