/-
# Layout.Item -- the items of a file

Each item ends its line.  What an item declares stands in a box that indents the
lines after the first one, and a body in braces closes that box.
-/
import LogInterface.Layout.Signature

namespace LogInterface.Layout

set_option autoImplicit false

/-! ## Imports -/

/-- Is the import the module itself, which needs braces? -/
def isSelfImport : Tree → Bool
  | .node .useName [.token (.ident s _)] => s == "self"
  | .node .useRename (.token (.ident s _) :: _) => s == "self"
  | _ => false

/-- Does a path of imports end in a group? -/
def endsInGroup : Tree → Bool
  | .node .useGroup _ => true
  | .node .usePath [_, _, _, t] => endsInGroup t
  | _ => false

def useMembers (lay : Tree → Commands) (members : List Tree) : Commands :=
  ((withLast members).map fun (t, last) =>
    lay t ++
      if last then [] else text "," ++ if endsInGroup t then hardBreak else space).flatten

def useGroup (lay : Tree → Commands) (members : List Tree) : Commands :=
  let grouped :=
    cbox indentation ++ text "\x7b" ++ zeroBreak ++ ibox 0 ++ useMembers lay members ++ close
      ++ trailingComma true ++ outdent ++ text "\x7d" ++ close
  match members with
  | [t] => if isSelfImport t then grouped else lay t
  | _ => grouped

def useTree (lay : Tree → Commands) : Tree → Commands
  | .node .usePath (name :: rest) =>
      text (tokenText name) ++ text "::" ++ (rest.getLast?.map lay).getD []
  | .node .useName [name] => text (tokenText name)
  | .node .useRename [name, _, newName] =>
      text (tokenText name) ++ text " as " ++ text (tokenText newName)
  | .node .useGlob _ => text "*"
  | .node .useGroup [.group _ _ _ members] => useGroup lay (elements members)
  | t => statement lay t

/-! ## Fields and variants -/

def field (lay : Tree → Commands) : Tree → Commands
  | .node .field [attributes, seen, name, _, t] =>
      attributesBefore lay attributes ++ visibility lay seen ++ text (tokenText name)
        ++ text ": " ++ lay t
  | .node .tupleField [attributes, seen, t] =>
      attributesBefore lay attributes ++ visibility lay seen ++ lay t
  | _ => []

/-- Fields with names on lines of their own.  They close a box that was opened in
front of them. -/
def fieldLines (lay : Tree → Commands) (fields : List Tree) : Commands :=
  text "\x7b" ++ hardBreakIfMore
    ++ ((elements fields).map fun f => lay f ++ text "," ++ hardBreak).flatten
    ++ outdent ++ close ++ text "\x7d"

def tupleFields (lay : Tree → Commands) (fields : List Tree) : Commands :=
  text "(" ++ zeroBreak ++ commaList ((elements fields).map (field lay)) ++ outdent ++ text ")"

def variant (lay : Tree → Commands) : Tree → Commands
  | .node .variant [attributes, name, fields, preset] =>
      attributesBefore lay attributes ++ text (tokenText name)
        ++ (match fields with
            | .group .brace _ _ fs =>
                text " \x7b" ++ cbox indentation ++ space
                  ++ ((withLast (elements fs)).map fun (f, last) =>
                      field lay f ++ trailingCommaOrSpace last).flatten
                  ++ outdent ++ close ++ text "\x7d"
            | .group _ _ _ fs => cbox indentation ++ tupleFields lay fs ++ close
            | _ => [])
        ++ (match defaultOf preset with
            | some e => text " = " ++ lay e
            | none => [])
  | t => field lay t

/-! ## Items -/

/-- Some word, a name and generic parameters. -/
def declared (lay : Tree → Commands) (word : String) (name params : Tree) : Commands :=
  text word ++ text (tokenText name) ++ genericsOf lay params

def clauseOf (t : Tree) : Option Tree := if t.isAbsent then none else some t

def structBody (lay : Tree → Commands) (early fields late : Tree) : Commands :=
  match fields with
  | .group .brace _ _ fs => clauseForBody lay (clauseOf early) ++ fieldLines lay fs
  | .group _ _ _ fs => tupleFields lay fs ++ clauseAtEnd lay (clauseOf late) ++ close
  | _ => clauseAtEnd lay (clauseOf early) ++ close

def constant (lay : Tree → Commands) : List Tree → Commands
  | [attributes, seen, preset, _, name, _, t, _, value, _] =>
      attributesBefore lay attributes ++ cbox 0 ++ visibility lay seen ++ wordIf preset "default "
        ++ text "const " ++ text (tokenText name) ++ text ": " ++ lay t
        ++ (if value.isAbsent then [] else text " = " ++ neverBreak ++ lay value)
        ++ text ";" ++ close ++ hardBreak
  | _ => []

def assignedType (lay : Tree → Commands) (t : Tree) : Commands :=
  text "= " ++ neverBreak ++ ibox (-indentation) ++ lay t ++ close

def associatedType (lay : Tree → Commands) : List Tree → Commands
  | [attributes, seen, preset, _, name, params, bounds, value, clause, _] =>
      attributesBefore lay attributes ++ cbox indentation ++ visibility lay seen
        ++ wordIf preset "default " ++ declared lay "type " name params
        ++ breakingBounds lay ": " (boundsOf bounds)
        ++ (match defaultOf value with
            | some t => text " " ++ assignedType lay t
            | none => [])
        ++ clauseInLine lay (clauseOf clause) ";" ++ close ++ hardBreak
  | _ => []

def foreignMember (lay : Tree → Commands) : Tree → Commands
  | .node .assocTypeItem [attributes, seen, _, _, name, params, _, _, _, _] =>
      attributesBefore lay attributes ++ cbox 0 ++ visibility lay seen
        ++ declared lay "type " name params ++ text ";" ++ close ++ hardBreak
  | t => lay t

def function (lay : Tree → Commands) (attributes seen preset : Tree) (s : Signature)
    (content : Tree) : Commands :=
  attributesBefore lay attributes ++ cbox indentation ++ visibility lay seen
    ++ wordIf preset "default " ++ signature lay s
    ++ (match content with
        | .group _ _ _ _ => clauseForBody lay s.clause ++ body lay content
        | _ => clauseAtEnd lay s.clause ++ close)
    ++ hardBreak

/-- Is the macro call a declaration by rules? -/
def isMacroDeclaration : Tree → Bool
  | .node .invocation (p :: _ :: rest) =>
      singleName? p == some "macro_rules" && (calledName? rest).isSome
  | _ => false

def implementation (lay : Tree → Commands) : List Tree → Commands
  | [attributes, preset, safety, _, params, ofTrait, t, clause, content] =>
      attributesBefore lay attributes ++ cbox indentation ++ ibox (-indentation)
        ++ cbox indentation ++ wordIf preset "default " ++ wordIf safety "unsafe " ++ text "impl"
        ++ genericsOf lay params ++ close ++ text " "
        ++ (match ofTrait with
            | .node .asTrait [.node _ polarity, p, _] =>
                text (if polarity.isEmpty then "" else "!") ++ lay p ++ space ++ text "for "
            | _ => [])
        ++ lay t ++ close ++ clauseForBody lay (clauseOf clause) ++ body lay content
        ++ hardBreak
  | _ => []

def item (lay : Tree → Commands) : Tree → Commands
  | .trait t => traitDecl lay t
  | .node .functionItem [attributes, seen, preset, .signature s, content] =>
      function lay attributes seen preset s content
  | .node .modItem [attributes, seen, safety, _, name, content] =>
      attributesBefore lay attributes ++ cbox indentation ++ visibility lay seen
        ++ wordIf safety "unsafe " ++ text "mod " ++ text (tokenText name)
        ++ (match content with
            | .group _ _ _ _ => text " " ++ body lay content
            | _ => text ";" ++ close)
        ++ hardBreak
  | .node .implItem children => implementation lay children
  | .node .foreignItem [attributes, safety, convention, content] =>
      attributesBefore lay attributes ++ cbox indentation ++ wordIf safety "unsafe "
        ++ abi convention ++ bodyWith lay (foreignMember lay) content ++ hardBreak
  | .node .structItem [attributes, seen, _, name, params, early, fields, late, _] =>
      attributesBefore lay attributes ++ cbox indentation ++ visibility lay seen
        ++ declared lay "struct " name params ++ structBody lay early fields late ++ hardBreak
  | .node .enumItem [attributes, seen, _, name, params, clause, variants] =>
      attributesBefore lay attributes ++ cbox indentation ++ visibility lay seen
        ++ declared lay "enum " name params ++ clauseForBody lay (clauseOf clause)
        ++ fieldLines lay (elementsOf variants) ++ hardBreak
  | .node .unionItem [attributes, seen, _, name, params, clause, fields] =>
      attributesBefore lay attributes ++ cbox indentation ++ visibility lay seen
        ++ declared lay "union " name params ++ clauseForBody lay (clauseOf clause)
        ++ fieldLines lay (elementsOf fields) ++ hardBreak
  | .node .constItem children => constant lay children
  | .node .staticItem [attributes, seen, _, mutability, name, _, t, _, e, _] =>
      attributesBefore lay attributes ++ cbox 0 ++ visibility lay seen ++ text "static "
        ++ wordIf mutability "mut " ++ text (tokenText name) ++ text ": " ++ lay t
        ++ (if e.isAbsent then [] else text " = " ++ neverBreak ++ lay e) ++ text ";" ++ close
        ++ hardBreak
  | .node .typeItem [attributes, seen, _, name, params, clause, value, _] =>
      attributesBefore lay attributes ++ cbox indentation ++ visibility lay seen
        ++ declared lay "type " name params ++ clauseInLine lay (clauseOf clause) ""
        ++ ((defaultOf value).map (assignedType lay)).getD [] ++ text ";" ++ close ++ hardBreak
  | .node .assocTypeItem children => associatedType lay children
  | .node .useItem [attributes, seen, _, .node _ root, t, _] =>
      attributesBefore lay attributes ++ visibility lay seen ++ text "use "
        ++ (if root.isEmpty then [] else text "::") ++ lay t ++ text ";" ++ hardBreak
  | .node .crateItem [attributes, seen, _, _, name, rename, _] =>
      attributesBefore lay attributes ++ visibility lay seen ++ text "extern crate "
        ++ text (tokenText name)
        ++ (match rename with
            | .node .list [_, newName] => text " as " ++ text (tokenText newName)
            | _ => [])
        ++ text ";" ++ hardBreak
  | .node .invocationItem [attributes, call, .node _ ending] =>
      attributesBefore lay attributes ++ lay call
        ++ (if ending.isEmpty || isMacroDeclaration call then [] else text ";") ++ hardBreak
  | .node .traitAlias [attributes, seen, _, name, params, _, .node _ bs, clause, _] =>
      attributesBefore lay attributes ++ cbox indentation ++ visibility lay seen
        ++ declared lay "trait " name params ++ text " = " ++ neverBreak
        ++ breakingBounds lay "" (elements bs) ++ clauseAtEnd lay (clauseOf clause) ++ close
        ++ hardBreak
  | .node .variant children => variant lay (.node .variant children)
  | .node .field children => field lay (.node .field children)
  | .node .tupleField children => field lay (.node .tupleField children)
  | t => useTree lay t

end LogInterface.Layout
