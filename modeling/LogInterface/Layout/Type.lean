/-
# Layout.Type -- types and macro calls

How types are laid out, and the macro calls that may stand for one.  Every
function takes `lay`, which lays out the trees below.
-/
import LogInterface.Layout.Call
import LogInterface.Layout.Path

namespace LogInterface.Layout

set_option autoImplicit false

/-! ## Types -/

def abi : Tree → Commands
  | .node .abi [_, .node _ [name]] => text "extern " ++ text (tokenText name) ++ text " "
  | .node .abi _ => text "extern "
  | _ => []

/-- Elements of a tuple: one alone keeps its comma. -/
def tupleElements (xs : List Commands) : Commands :=
  match xs with
  | [x] => x ++ text "," ++ zeroBreak
  | xs => commaList xs

def functionInputs (lay : Tree → Commands) (inputs : List Tree) : Commands :=
  let some? := inputs.getLast?.any (·.is .variadic)
  if some? then
    ((inputs.dropLast.map fun t => lay t ++ trailingComma false).flatten)
      ++ (inputs.getLast?.map lay).getD [] ++ zeroBreak
  else commaList (inputs.map lay)

/-- The name behind the exclamation mark of a macro call. -/
def calledName? : List Tree → Option String
  | [.token (.ident s _), _] => some s
  | _ => none

def invocation (lay : Tree → Commands) : List Tree → Commands
  | p :: _ :: rest =>
      match calledName? rest, singleName? p, rest.getLast? with
      | some name, some "macro_rules", some (.group _ _ _ rules) =>
          macroDeclaration name (treesTokens rules)
      | called, _, some (.group d _ _ content) =>
          lay p ++ text "!" ++ ((called.map fun name => text (" " ++ name)).getD [])
            ++ callGroup d (treesTokens content)
      | _, _, _ => []
  | _ => []

def inputName : Tree → Commands
  | .node .list (name :: _) => text (tokenText name) ++ text ": "
  | _ => []

def type (lay : Tree → Commands) : Tree → Commands
  | .node .path children => path lay .type children
  | .node .lifetimeParam children => genericParam lay (.node .lifetimeParam children)
  | .node .typeParam children => genericParam lay (.node .typeParam children)
  | .node .constParam children => genericParam lay (.node .constParam children)
  | .node .pathType [p] => qualifiedPath lay .type p
  | .node .invocation children => invocation lay children
  | .node .referenceType [_, l, mutability, t] =>
      text "&" ++ (if l.isAbsent then [] else text (lifetimeText l ++ " "))
        ++ wordIf mutability "mut " ++ lay t
  | .node .pointerType [_, word, t] => text "*" ++ text (tokenText word ++ " ") ++ lay t
  | .node .sliceType [.group _ _ _ [t]] => text "[" ++ lay t ++ text "]"
  | .node .arrayType [.group _ _ _ [t, _, n]] =>
      text "[" ++ lay t ++ text "; " ++ lay n ++ text "]"
  | .node .tupleType [.group _ _ _ ts] =>
      text "(" ++ cbox indentation ++ zeroBreak ++ tupleElements ((elements ts).map lay)
        ++ outdent ++ close ++ text ")"
  | .node .parenType [.group _ _ _ [t]] => text "(" ++ lay t ++ text ")"
  | .node .functionType [fors, safety, convention, _, .group _ _ _ inputs, result] =>
      binder lay fors ++ wordIf safety "unsafe " ++ abi convention ++ text "fn("
        ++ cbox indentation ++ zeroBreak ++ functionInputs lay (elements inputs) ++ outdent
        ++ close ++ text ")" ++ output lay result
  | .node .functionInput [attributes, name, t] =>
      attributesBefore lay attributes ++ inputName name ++ lay t
  | .node .variadic (attributes :: name :: _) =>
      attributesBefore lay attributes ++ inputName name ++ text "..."
  | .node .objectType [_, .node _ bs] => text "dyn " ++ plainBounds lay bs
  | .node .implType [_, .node _ bs] => text "impl " ++ plainBounds lay bs
  | .node .neverType _ => text "!"
  | .node .inferredType _ => text "_"
  | .node .assocType [name, arguments, _, t] =>
      text (tokenText name) ++ segmentArguments lay .type arguments ++ text " = " ++ lay t
  | .node .assocConst [name, arguments, _, e] =>
      text (tokenText name) ++ segmentArguments lay .type arguments ++ text " = " ++ lay e
  | .node .constraint [name, arguments, bounds] =>
      text (tokenText name) ++ segmentArguments lay .type arguments ++ ibox indentation
        ++ breakingBounds lay ": " (boundsOf bounds) ++ close
  | t => bound lay t

end LogInterface.Layout
