/-
# Layout.Pattern -- patterns

How patterns are laid out.  A range in a pattern is laid out as the expression it
would be elsewhere.
-/
import LogInterface.Layout.Type

namespace LogInterface.Layout

set_option autoImplicit false

/-- Does every alternative fit in one word? -/
def isPlainAlternative (t : Tree) : Bool := t.is .literalPattern || t.is .wildPattern

def pattern (lay : Tree → Commands) : Tree → Commands
  | .node .identPattern [byRef, mutability, name, sub] =>
      wordIf byRef "ref " ++ wordIf mutability "mut " ++ text (tokenText name)
        ++ (match sub with
            | .node .list [_, p] => text " @ " ++ lay p
            | _ => [])
  | .node .wildPattern _ => text "_"
  | .node .restPattern (attributes :: _) =>
      attributesBefore lay attributes ++ text ".."
  | .node .literalPattern [l] => lay l
  | .node .pathPattern [p] => qualifiedPath lay .expression p
  | .node .parenPattern [.group _ _ _ [p]] => text "(" ++ lay p ++ text ")"
  | .node .tuplePattern [.group _ _ _ ps] =>
      let inside := match ps with
        | [p] => lay p ++ zeroBreak
        | [p, _] => lay p ++ text "," ++ zeroBreak
        | ps => commaList ((elements ps).map lay)
      text "(" ++ cbox indentation ++ zeroBreak ++ inside ++ outdent ++ close ++ text ")"
  | .node .slicePattern [.group _ _ _ ps] =>
      text "[" ++ commaList ((elements ps).map lay) ++ text "]"
  | .node .tupleStructPattern [p, .group _ _ _ ps] =>
      pathWithoutType lay p ++ text "(" ++ cbox indentation ++ zeroBreak
        ++ commaList ((elements ps).map lay) ++ outdent ++ close ++ text ")"
  | .node .structPattern [p, .group _ _ _ fields] =>
      cbox indentation ++ pathWithoutType lay p ++ text " \x7b" ++ spaceIfMore
        ++ ((withLast (elements fields)).map fun (f, last) =>
            lay f ++ if f.is .restPattern then space else trailingCommaOrSpace last).flatten
        ++ outdent ++ close ++ text "\x7d"
  | .node .fieldPattern [attributes, name, p] =>
      attributesBefore lay attributes
        ++ (match name with
            | .node .list (member :: _) => text (tokenText member) ++ text ": "
            | _ => [])
        ++ lay p
  | .node .typedPattern [p, _, t] => lay p ++ text ": " ++ lay t
  | .node .referencePattern [_, mutability, p] => text "&" ++ wordIf mutability "mut " ++ lay p
  | .node .orPattern ps =>
      let alternatives := elements ps
      (if alternatives.all isPlainAlternative then ibox 0 else cbox 0)
        ++ separated (space ++ text "| ") (alternatives.map lay) ++ close
  | t => type lay t

end LogInterface.Layout
