/-
# Parser.Member -- constants, types and macro calls as items

What files, traits, implementations and foreign blocks declare in the same way:
constants, types and macro calls.  Each place allows a part of what can be
written here and keeps the rest as written.
-/
import LogInterface.Parser.Signature

namespace LogInterface.Parser

set_option autoImplicit false

/-! ## Constants -/

structure ConstDecl where
  tree : Tree
  hasValue : Bool
  /-- Does it lack generic parameters and a clause? -/
  plain : Bool

def constName : Parser Tree := do
  if startsWild (← ahead) then return .token (← anyWord).token
  else failExpecting ["identifier", "`_`"]

/-- A constant behind its visibility and `default`. -/
def constDecl (g : Grammar) (attributes : List Attribute) (seen preset : Tree) :
    Parser ConstDecl := do
  let w ← wordTree "const"
  let i ← constName
  let generic := startsOperator "<" (← ahead)
  let _ ← generics g
  let colon ← operatorTrees ":"
  let t ← g.type true
  let equals ← operator? "="
  let value ← if equals.isEmpty then pure Tree.absent else whole g
  let claused := startsWord "where" (← ahead)
  let _ ← whereClause? g
  let semicolon ← operatorTrees ";"
  return {
    tree := .node .constItem
      [attributesTree attributes, seen, preset, w, i, .node .list colon, t,
        .node .list (Tree.ofTokens equals), value, .node .list semicolon]
    hasValue := !equals.isEmpty
    plain := !generic && !claused }

/-! ## Types -/

/-- Where the clause of a type may stand. -/
inductive ClausePlace where
  | beforeEquals
  | afterEquals
  | both
  deriving DecidableEq, Repr

structure TypeDecl where
  visibility : Tree
  preset : Tree
  keyword : Tree
  name : Tree
  generics : Generics
  /-- Is there a colon behind the name? -/
  colon : Bool
  bounds : Tree
  clause : Option Tree
  value : Tree
  semicolon : List Tree

/-- Bounds that a plus sign has to separate, behind a colon. -/
def separatedBounds (g : Grammar) : Parser (List Tree) := do
  let stop (ts : List Token) : Bool :=
    startsWord "where" ts || startsOperator "=" ts || startsOperator ";" ts
  separated stop (g.bound { capture := false, const := true }) "+"

def typeDecl (g : Grammar) (allowDefault : Bool) (place : ClausePlace) : Parser TypeDecl := do
  let seen ← visibility
  let preset ← if allowDefault then optionalWord "default" else pure .absent
  let w ← wordTree "type"
  let i ← name
  let params ← generics g
  let colon ← operator? ":"
  let bounds ← if colon.isEmpty then pure [] else separatedBounds g
  let early := place ≠ .afterEquals && startsWord "where" (← ahead)
  let before ← if early then whereClause? g else pure none
  let value ← default? (g.type true)
  let after ← if place ≠ .beforeEquals && !early then whereClause? g else pure none
  return {
    visibility := seen
    preset
    keyword := w
    name := .token i.token
    generics := params
    colon := !colon.isEmpty
    bounds := boundsTree colon bounds
    clause := before <|> after
    value
    semicolon := ← operatorTrees ";" }

/-- A type that belongs to a trait, an implementation or a foreign block. -/
def TypeDecl.associated (d : TypeDecl) (attributes : List Attribute) : Tree :=
  .node .assocTypeItem
    [attributesTree attributes, d.visibility, d.preset, d.keyword, d.name, .generics d.generics,
      d.bounds, d.value, .orAbsent d.clause, .node .list d.semicolon]

/-! ## Macro calls -/

/-- Can a macro call start here? -/
def startsInvocation (ts : List Token) : Bool :=
  startsName ts || startsOneOf ["self", "super", "crate"] ts || startsOperator "::" ts

/-- What an item can start with when nothing stands in front of it. -/
def invocationStarts : List String := ["identifier", "`self`", "`super`", "`crate`", "`::`"]

/-- A macro call as an item; where `named` is true a name may follow the
exclamation mark. -/
def invocationItem (attributes : List Attribute) (named : Bool) : Parser Tree := do
  let p ← plainPathTree
  let bang ← operatorTrees "!"
  let ts ← ahead
  let called ←
    if named && (startsName ts || startsWord "try" ts) then do
      pure [Tree.token (← anyWord).token]
    else pure []
  let call := Tree.node .invocation ([p] ++ bang ++ called ++ [← rawGroup])
  return .node .invocationItem
    [attributesTree attributes, call, .node .list (← invocationEnd call)]

end LogInterface.Parser
