/-
# Layout.Signature -- functions and traits

The layout of what has a type of its own: receivers, inputs, signatures, methods
and trait declarations.
-/
import LogInterface.Layout.Statement

namespace LogInterface.Layout

set_option autoImplicit false

/-! ## Visibility -/

def visibility (lay : Tree → Commands) : Tree → Commands
  | .node .visibility [_, .group _ _ _ [.node .segment [name, _]]] =>
      text "pub(" ++ text (tokenText name) ++ text ") "
  | .node .visibility [_, .group _ _ _ [_, p]] =>
      let place :=
        match singleName? p with
        | some name => if ["self", "super", "crate"].contains name then [] else text "in "
        | none => text "in "
      text "pub(" ++ place ++ lay p ++ text ") "
  | .node .visibility _ => text "pub "
  | _ => []

/-! ## Signatures -/

/-- A word, if it was written. -/
def keyword (word : String) : Option Place → Commands
  | some _ => text word
  | none => []

def receiver (lay : Tree → Commands) (r : Receiver) : Commands :=
  outerAttributes lay r.attributes
    ++ (match r.reference with
        | some _ =>
            text "&" ++ if r.lifetime.isAbsent then [] else text (lifetimeText r.lifetime ++ " ")
        | none => [])
    ++ keyword "mut " r.mutability ++ text "self"
    ++ (match r.type with
        | some t => text ": " ++ lay t
        | none => [])

def input (lay : Tree → Commands) : Input → Commands
  | .receiver r => receiver lay r
  | .typed attributes p t =>
      outerAttributes lay attributes
        ++ (match p with
            | .name i => text i.text
            | .other p => lay p)
        ++ text ": " ++ lay t

/-- The mark of further inputs. -/
def variadic (lay : Tree → Commands) : Tree → Commands
  | .node .variadic (attributes :: name :: _) =>
      attributesBefore lay attributes
        ++ (match name with
            | .node .list (p :: _) => lay p ++ text ": "
            | _ => [])
        ++ text "..."
  | _ => []

def signature (lay : Tree → Commands) (s : Signature) : Commands :=
  let inputs :=
    match s.variadic with
    | some v =>
        (s.inputs.map fun i => input lay i ++ trailingComma false).flatten ++ variadic lay v
          ++ zeroBreak
    | none => commaList (s.inputs.map (input lay))
  keyword "const " s.constness ++ keyword "async " s.asyncness ++ keyword "unsafe " s.unsafety
    ++ (s.abi.map abi).getD [] ++ text "fn " ++ text s.name.text ++ generics lay s.generics
    ++ text "(" ++ neverBreak ++ cbox 0 ++ zeroBreak ++ inputs ++ outdent ++ close ++ text ")"
    ++ cbox (-indentation)
    ++ (match s.output with
        | some t => text " -> " ++ lay t
        | none => [])
    ++ close

/-! ## Bodies -/

/-- A body in braces on lines of its own.  It closes a box that was opened in
front of it. -/
def bodyOf (lay : Tree → Commands) (attributes : List Attribute) (content : Commands) :
    Commands :=
  text "\x7b" ++ hardBreakIfMore ++ innerAttributes lay attributes ++ content ++ outdent ++ close
    ++ text "\x7d"

/-- A body whose first part are the attributes inside it; `member` lays out the
others. -/
def bodyWith (lay member : Tree → Commands) : Tree → Commands
  | .group _ _ _ (attributes :: content) =>
      bodyOf lay (attributesOf attributes) ((content.map member).flatten)
  | _ => bodyOf lay [] []

/-- A body whose first part are the attributes inside it. -/
def body (lay : Tree → Commands) (t : Tree) : Commands := bodyWith lay lay t

/-! ## Traits -/

def method (lay : Tree → Commands) (m : Method) : Commands :=
  outerAttributes lay m.attributes ++ cbox indentation ++ signature lay m.signature
    ++ (match m.body with
        | some (.group _ _ _ statements) =>
            clauseForBody lay m.signature.clause
              ++ bodyOf lay m.attributes (statements.map lay).flatten
        | _ => clauseAtEnd lay m.signature.clause ++ close)
    ++ hardBreak

def traitItem (lay : Tree → Commands) : TraitItem → Commands
  | .method m => method lay m
  | .other t => lay t

def traitDecl (lay : Tree → Commands) (t : TraitDecl) : Commands :=
  outerAttributes lay t.attributes ++ cbox indentation ++ visibility lay t.visibility
    ++ keyword "unsafe " t.unsafety ++ keyword "auto " t.auto ++ text "trait " ++ text t.name.text
    ++ generics lay t.generics
    ++ (if t.supertraits.isEmpty then []
        else text ": " ++ separated (text " + ") (t.supertraits.map (bound lay)))
    ++ clauseForBody lay t.clause
    ++ bodyOf lay t.attributes (t.items.map (traitItem lay)).flatten ++ hardBreak

end LogInterface.Layout
