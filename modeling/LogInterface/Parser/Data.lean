/-
# Parser.Data -- structs, enumerations and unions

Fields have names in braces and none in parentheses.  A field may be called `_`
and then hold a struct or a union that is written out in place.
-/
import LogInterface.Parser.Trait

namespace LogInterface.Parser

set_option autoImplicit false

/-! ## Fields -/

/-- Does a struct or a union come next that is written out in place? -/
def startsInPlace (ts : List Token) : Bool :=
  startsWord "struct" ts || (startsWord "union" ts && startsGroup .brace (skip ts))

/-- The type of a field that is called `_`, of which `fields` are the fields within. -/
def unnamedType (g : Grammar) (fields : Parser Tree) : Parser Tree := do
  let before ← ahead
  if startsInPlace before then
    let _ ← anyWord
    let _ ← fields
    verbatimSince before
  else g.type true

/-- A field with a name, of which `fields` are the fields within. -/
def namedField (g : Grammar) (fields : Parser Tree) : Parser Tree := do
  let attributes ← outerAttributes g
  let seen ← visibility
  let unnamed := startsWord "_" (← ahead)
  let i ← if unnamed then anyWord else name
  let colon ← operatorTrees ":"
  let t ← if unnamed then unnamedType g fields else g.type true
  return .node .field [attributesTree attributes, seen, .token i.token, .node .list colon, t]

/-- Fields with names; `fuel` bounds how deep they nest. -/
def namedFieldsWithin (g : Grammar) : (fuel : Nat) → Parser Tree
  | 0 => failExpecting []
  | fuel + 1 => grouped .brace (commaSeparated (namedField g (namedFieldsWithin g fuel)))

def namedFields (g : Grammar) : Parser Tree := do
  namedFieldsWithin g (Token.countAll (← ahead) + 1)

def tupleField (g : Grammar) : Parser Tree := do
  let attributes ← outerAttributes g
  let seen ← visibility
  return .node .tupleField [attributesTree attributes, seen, ← g.type true]

def tupleFields (g : Grammar) : Parser Tree :=
  grouped .parenthesis (commaSeparated (tupleField g))

/-! ## Items -/

def structItem (g : Grammar) (attributes : List Attribute) : Parser Tree := do
  let seen ← visibility
  let w ← wordTree "struct"
  let i ← name
  let params ← generics g
  let start : List Tree := [attributesTree attributes, seen, w, .token i.token, .generics params]
  let early := startsWord "where" (← ahead)
  let before ← whereClause? g
  let ts ← ahead
  if !early && startsGroup .parenthesis ts then
    let fields ← tupleFields g
    let late := startsWord "where" (← ahead)
    let after ← whereClause? g
    if startsOperator ";" (← ahead) then
      return .node .structItem
        (start ++ [.absent, fields, .orAbsent after, .node .list (← operatorTrees ";")])
    else failExpecting (if late then ["`;`"] else ["`where`", "`;`"])
  else if startsGroup .brace ts then
    return .node .structItem
      (start ++ [.orAbsent before, ← namedFields g, .absent, .node .list []])
  else if startsOperator ";" ts then
    return .node .structItem
      (start ++ [.orAbsent before, .absent, .absent, .node .list (← operatorTrees ";")])
  else if early then failExpecting ["curly braces", "`;`"]
  else failExpecting ["`where`", "parentheses", "curly braces", "`;`"]

def variant (g : Grammar) : Parser Tree := do
  let attributes ← outerAttributes g
  let _ ← visibility
  let i ← name
  let ts ← ahead
  let fields ←
    if startsGroup .brace ts then namedFields g
    else if startsGroup .parenthesis ts then tupleFields g
    else pure .absent
  return .node .variant
    [attributesTree attributes, .token i.token, fields, ← default? (whole g)]

def enumItem (g : Grammar) (attributes : List Attribute) : Parser Tree := do
  let seen ← visibility
  let w ← wordTree "enum"
  let i ← name
  let params ← generics g
  let clause ← whereClause? g
  return .node .enumItem
    [attributesTree attributes, seen, w, .token i.token, .generics params, .orAbsent clause,
      ← grouped .brace (commaSeparated (variant g))]

def unionItem (g : Grammar) (attributes : List Attribute) : Parser Tree := do
  let seen ← visibility
  let w ← wordTree "union"
  let i ← name
  let params ← generics g
  let clause ← whereClause? g
  return .node .unionItem
    [attributesTree attributes, seen, w, .token i.token, .generics params, .orAbsent clause,
      ← namedFields g]

end LogInterface.Parser
