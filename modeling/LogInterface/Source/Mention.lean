/-
# Source.Mention -- what a part of a source mentions

`Tree.mentions` lists, in the order of reading, the paths by their first name,
the `impl` types and the trait declarations of a tree.  What is mentioned inside
an `impl` type is marked as such, because some questions stop there.
-/
import LogInterface.Source.Tokens

namespace LogInterface

set_option autoImplicit false

/-- Something that a part of a source mentions. -/
inductive Mention where
  /-- A path, by its first name. -/
  | path (first : Ident)
  /-- An `impl` type, by its place. -/
  | implType (place : Place)
  /-- A declaration of a trait. -/
  | declaration (t : TraitDecl)
  /-- Something inside an `impl` type. -/
  | inside (m : Mention)

def firstName? : List Tree → Option Ident
  | [] => none
  | .node .segment (.token (.ident text p) :: _) :: _ => some ⟨text, p⟩
  | _ :: ts => firstName? ts

/-- What some trees mention, given what each of them mentions.  A clause is taken
together with the generic parameters that it is about. -/
def inOrder (trees : List (Tree × List Mention)) : List Mention :=
  match trees with
  | [] => []
  | (.generics _, first) :: rest =>
      let (clauses, others) := rest.partition (·.1.is .whereClause)
      first ++ clauses.flatMap (·.2) ++ others.flatMap (·.2)
  | (_, first) :: rest => first ++ inOrder rest

def nodeMentions (kind : Kind) (children : List Tree) (each : List (List Mention)) :
    List Mention :=
  let deeper := inOrder (children.zip each)
  match kind with
  | .path => ((firstName? children).map Mention.path).toList ++ deeper
  | .implType =>
      let place := (treesTokens children).head?.map Token.place
      .implType (place.getD .nowhere) :: deeper.map .inside
  | _ => deeper

mutual

def Tree.mentions : Tree → List Mention
  | .token _ => []
  | .group _ _ _ content => (treesMentions content).flatten
  | .node kind children => nodeMentions kind children (treesMentions children)
  | .attribute a => a.mentions
  | .generics g => g.mentions
  | .signature s => s.mentions
  | .trait t => .declaration t :: t.mentions

def treesMentions : List Tree → List (List Mention)
  | [] => []
  | t :: ts => t.mentions :: treesMentions ts

def AttributeInput.mentions : AttributeInput → List Mention
  | .value e => e.mentions
  | _ => []

def Attribute.mentions : Attribute → List Mention
  | ⟨_, _, _, path, input⟩ => (path.head?.map Mention.path).toList ++ input.mentions

def attributesMentions : List Attribute → List Mention
  | [] => []
  | a :: as => a.mentions ++ attributesMentions as

def optionMentions : Option Tree → List Mention
  | none => []
  | some t => t.mentions

def Generics.mentions : Generics → List Mention
  | ⟨params, _⟩ => paramsMentions params

def paramsMentions : List GenericParam → List Mention
  | [] => []
  | ⟨_, tree⟩ :: ps => tree.mentions ++ paramsMentions ps

/-- What an input mentions.  A receiver without a type stands for `Self`. -/
def Input.mentions : Input → List Mention
  | .receiver ⟨attributes, _, _, _, place, type⟩ =>
      attributesMentions attributes
        ++ (match type with
            | some t => t.mentions
            | none => [.path ⟨"Self", place⟩])
  | .typed attributes pattern type =>
      attributesMentions attributes ++ pattern.mentions ++ type.mentions

def Pattern.mentions : Pattern → List Mention
  | .name _ => []
  | .other t => t.mentions

def inputsMentions : List Input → List Mention
  | [] => []
  | i :: is => i.mentions ++ inputsMentions is

def Signature.mentions : Signature → List Mention
  | ⟨_, _, _, _, _, _, generics, inputs, _, variadic, output, clause⟩ =>
      generics.mentions ++ optionMentions clause ++ inputsMentions inputs
        ++ optionMentions variadic ++ optionMentions output

def Method.mentions : Method → List Mention
  | ⟨attributes, signature, body⟩ =>
      attributesMentions attributes ++ signature.mentions ++ optionMentions body

def TraitItem.mentions : TraitItem → List Mention
  | .method m => m.mentions
  | .other t => t.mentions

def itemsMentions : List TraitItem → List Mention
  | [] => []
  | i :: is => i.mentions ++ itemsMentions is

def TraitDecl.mentions : TraitDecl → List Mention
  | ⟨attributes, visibility, _, _, _, _, generics, supertraits, _, clause, items⟩ =>
      attributesMentions attributes ++ visibility.mentions ++ generics.mentions
        ++ optionMentions clause ++ (treesMentions supertraits).flatten ++ itemsMentions items

end

/-- The trait declaration that is mentioned, wherever it stands. -/
def Mention.declaration? : Mention → Option TraitDecl
  | .declaration t => some t
  | .inside m => m.declaration?
  | _ => none

/-- The traits declared in a tree, in the order of reading. -/
def Tree.declaredTraits (t : Tree) : List TraitDecl := t.mentions.filterMap Mention.declaration?

/-- Where a tree first names a type by `Self`, outside `impl` types. -/
def Tree.selfMention? (t : Tree) : Option Place :=
  t.mentions.findSome? fun m =>
    match m with
    | .path i => if i.text == "Self" then some i.place else none
    | _ => none

/-- Where a tree first writes an `impl` type. -/
def Tree.implMention? (t : Tree) : Option Place :=
  t.mentions.findSome? fun m =>
    match m with
    | .implType p => some p
    | _ => none

end LogInterface
