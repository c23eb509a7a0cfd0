/-
# Source.Tree -- declarations as trees

Rust source is kept as a tree.  What a logging interface is made of has a type
of its own: trait declarations, methods, signatures, parameters, generic
parameters and attributes.  Everything below them -- types, patterns,
expressions and the other items -- is a `Tree.node` with a `Kind`, whose
children stand in the order in which they are written.

A child that may be missing is `Tree.absent` where it is missing, so a kind
always has the same children.  Lists keep their separators.
-/
import LogInterface.Token.Basic

namespace LogInterface

set_option autoImplicit false

/-- An identifier as it is spelled, `r#` included, and where it stands. -/
structure Ident where
  text : String
  place : Place
  deriving DecidableEq, Repr, Inhabited

/-- The name that an identifier denotes, raw or not. -/
def Ident.name (i : Ident) : String :=
  match i.text.toList with
  | 'r' :: '#' :: rest => String.ofList rest
  | _ => i.text

def Ident.token (i : Ident) : Token := .ident i.text i.place

/-- The kinds of nodes. -/
inductive Kind where
  -- parts of any node
  | absent | list | attributes | lifetime | label | visibility | abi | defaultValue | verbatim
  -- paths
  | path | segment | angleArguments | roundArguments | qualifiedPath | asTrait | pathRest
  | assocType | assocConst | constraint
  -- types
  | pathType | referenceType | pointerType | sliceType | arrayType | tupleType | parenType
  | functionType | functionInput | variadic | objectType | implType | neverType | inferredType
  | invocation | output
  -- bounds and generic parameters
  | bounds | traitBound | parenBound | captureBound | forBinder | lifetimeParam | typeParam
  | constParam | whereClause | lifetimePredicate | typePredicate
  -- patterns
  | identPattern | wildPattern | tuplePattern | parenPattern | slicePattern | pathPattern
  | tupleStructPattern | structPattern | fieldPattern | restPattern | referencePattern
  | literalPattern | orPattern | typedPattern
  -- operands
  | literal | pathExpr | parenExpr | tupleExpr | arrayExpr | repeatExpr | structExpr | fieldValue
  | structRest | inferredExpr | attributed | enclosed | closure
  -- operators
  | call | methodCall | fieldAccess | awaitExpr | index | tryExpr | unary | referenceExpr
  | rawReference | binary | assign | castExpr | range | letExpr
  -- blocks
  | block | unsafeBlock | constBlock | tryBlock | asyncBlock | ifExpr | matchExpr | arm
  | forLoop | whileLoop | loop | breakExpr | continueExpr | returnExpr | yieldExpr
  -- statements
  | letStmt | exprStmt | invocationStmt | emptyStmt
  -- items
  | useItem | usePath | useName | useRename | useGlob | useGroup
  | structItem | enumItem | unionItem | field | tupleField | variant
  | constItem | staticItem | typeItem | assocTypeItem | modItem | functionItem | implItem
  | crateItem | foreignItem | invocationItem | traitAlias
  deriving DecidableEq, Repr

/-- The kinds of generic parameters. -/
inductive ParamKind where
  | lifetime
  | type
  | const
  deriving DecidableEq, Repr

mutual

/-- What stands behind the path of an attribute. -/
inductive AttributeInput where
  | nothing
  | list (delimiter : Delimiter) (content : List Token) (opens closes : Place)
  /-- An equals sign and an expression. -/
  | value (expression : Tree)

/-- An attribute, in front of what it annotates or (`inner`) inside. -/
structure Attribute where
  inner : Bool
  place : Place
  /-- Does the path start with two colons? -/
  rooted : Bool
  path : List Ident
  input : AttributeInput

/-- A part of a source file. -/
inductive Tree where
  | token (t : Token)
  | group (delimiter : Delimiter) (opens closes : Place) (content : List Tree)
  | node (kind : Kind) (children : List Tree)
  | attribute (a : Attribute)
  | generics (g : Generics)
  | signature (s : Signature)
  | trait (t : TraitDecl)

structure GenericParam where
  kind : ParamKind
  tree : Tree

/-- Generic parameters in their order, and whether a comma ends them. -/
structure Generics where
  params : List GenericParam
  trailing : Bool

structure Receiver where
  attributes : List Attribute
  /-- The `&` before it. -/
  reference : Option Place
  lifetime : Tree
  mutability : Option Place
  place : Place
  /-- The type written behind it. -/
  type : Option Tree

/-- The pattern of a parameter: a plain identifier, or anything else. -/
inductive Pattern where
  | name (ident : Ident)
  | other (pattern : Tree)

/-- One input of a function. -/
inductive Input where
  | receiver (r : Receiver)
  | typed (attributes : List Attribute) (pattern : Pattern) (type : Tree)

structure Signature where
  constness : Option Place
  asyncness : Option Place
  unsafety : Option Place
  /-- `extern` and the name behind it. -/
  abi : Option Tree
  keyword : Place
  name : Ident
  generics : Generics
  inputs : List Input
  /-- Does a comma end the inputs? -/
  trailing : Bool
  variadic : Option Tree
  output : Option Tree
  /-- The `where` clause, if it has a predicate. -/
  clause : Option Tree

structure Method where
  attributes : List Attribute
  signature : Signature
  /-- The default body, a brace group. -/
  body : Option Tree

/-- An item of a trait. -/
inductive TraitItem where
  | method (m : Method)
  | other (t : Tree)

structure TraitDecl where
  /-- Outer attributes, then inner ones. -/
  attributes : List Attribute
  visibility : Tree
  unsafety : Option Place
  auto : Option Place
  keyword : Place
  name : Ident
  generics : Generics
  supertraits : List Tree
  /-- Does a plus sign end the supertraits? -/
  trailingPlus : Bool
  /-- The `where` clause, if it has a predicate. -/
  clause : Option Tree
  items : List TraitItem

end

def Tree.absent : Tree := .node .absent []

def Tree.orAbsent : Option Tree → Tree
  | some t => t
  | none => .absent

def Tree.isAbsent : Tree → Bool
  | .node .absent _ => true
  | _ => false

instance : Inhabited Tree := ⟨.absent⟩

def Tree.is (t : Tree) (k : Kind) : Bool :=
  match t with
  | .node kind _ => kind = k
  | _ => false

def Tree.children : Tree → List Tree
  | .node _ children => children
  | _ => []

/-- Several tokens side by side. -/
def Tree.ofTokens (ts : List Token) : List Tree := ts.map .token

/-- Is the tree an element of a list and not a separator? -/
def Tree.isElement : Tree → Bool
  | .token _ => false
  | _ => true

/-- The elements of a list or of the content of a group, without separators. -/
def elements (ts : List Tree) : List Tree := ts.filter Tree.isElement

/-- A whole source file: its inner attributes and its items. -/
structure SourceFile where
  attributes : List Attribute
  items : List Tree

end LogInterface
