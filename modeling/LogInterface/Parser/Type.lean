/-
# Parser.Type -- types

A type takes in bounds that are joined by plus signs only where its surroundings
allow it.  Bounds may stand without `dyn` behind a path, a lifetime or
parentheses.
-/
import LogInterface.Parser.Generics

namespace LogInterface.Parser

set_option autoImplicit false

/-! ## Bounds as types -/

/-- In an object type there are traits and lifetimes only. -/
def plainForms : BoundForms := { capture := false, const := false }

/-- In an `impl` type every bound is allowed. -/
def allForms : BoundForms := { capture := true, const := true }

/-- Bounds behind a first one that was already read. -/
def furtherBounds (g : Grammar) (go : List Token → Bool) (first : Tree) : Parser (List Tree) := do
  let plus ← operator? "+"
  if plus.isEmpty then return [first]
  if go (← ahead) then
    return first :: Tree.ofTokens plus ++ (← chained go (g.bound plainForms) "+")
  else return first :: Tree.ofTokens plus

/-- Is it a bound that tells nothing about traits? -/
def isNoTrait (b : Tree) : Bool := b.is .lifetime || b.is .captureBound

/-- Fails at a place unless one of the bounds is a trait. -/
def needTrait (place : Place) (text : String) (bs : List Tree) : Parser Unit := do
  if (elements bs).all isNoTrait then failAt place (.rule text)

/-- What is said of an object type without a trait. -/
def objectNeedsTrait : String := "at least one trait is required for an object type"

/-- A type that starts with `dyn`.  With a star behind it, it is kept as written. -/
def dynType (g : Grammar) (plus : Bool) : Parser Tree := do
  let before ← ahead
  let place ← here
  let w ← wordTree "dyn"
  let star ← operator? "*"
  let bs ← bounds g plus plainForms
  needTrait place objectNeedsTrait bs
  if star.isEmpty then return .node .objectType [w, .node .list bs]
  else verbatimSince before

def lifetimeType (g : Grammar) : Parser Tree := do
  let place ← here
  let bs ← bounds g true plainForms
  needTrait place objectNeedsTrait bs
  return .node .objectType [.absent, .node .list bs]

def implType (g : Grammar) (plus : Bool) : Parser Tree := do
  let place ← here
  let w ← wordTree "impl"
  let bs ← bounds g plus allForms
  needTrait place "at least one trait must be specified" bs
  return .node .implType [w, .node .list bs]

def pathBound (binder path : Tree) : Tree := .node .traitBound [binder, .node .list [], path]

/-- A type that starts with a path: a name, a macro call, or bounds without `dyn`. -/
def typeOfPath (g : Grammar) (plus : Bool) (binder : Tree) : Parser Tree := do
  let p ← qualifiedPath g false
  let ts ← ahead
  if p.is .qualifiedPath then return .node .pathType [p]
  else if startsBang ts && isPlainPath p then invocationOf p
  else if !binder.isAbsent || (plus && startsOperator "+" ts) then
    let first := pathBound binder p
    let bounds ← if plus then furtherBounds g (startsBound plainForms) first else pure [first]
    return .node .objectType [.absent, .node .list bounds]
  else return .node .pathType [p]

/-! ## Parentheses -/

/-- What was read between parentheses where a type is needed. -/
inductive RoundType where
  | unit
  | one (t : Tree)
  | tuple (ts : List Tree)
  | object (bound : Tree)

/-- Reads between parentheses where a type is needed. -/
def roundType (g : Grammar) : Parser RoundType := do
  let ts ← ahead
  if ts.isEmpty then return .unit
  else if startsLifetime ts then return .one (← lifetimeType g)
  else if startsOperator "?" ts then return .object (← traitBound g plainForms).1
  else
    let first ← g.type true
    let comma ← if startsOperator "," (← ahead) then operatorTrees "," else pure []
    if comma.isEmpty then return .one first
    return .tuple (first :: comma ++ (← commaSeparated (g.type true)))

def boundOfRound? (group : Tree → Tree) : Tree → Option Tree
  | .node .pathType [p] =>
      if p.is .path then some (.node .parenBound [group (pathBound .absent p)]) else none
  | .node .objectType [.node .absent _, .node .list [b]] =>
      match b with
      | .node .parenBound [.group _ _ _ [inner]] => some (.node .parenBound [group inner])
      | b => if b.is .traitBound then some (.node .parenBound [group b]) else none
  | _ => none

/-- An object type that starts with a bound between parentheses. -/
def roundObject (g : Grammar) (bound : Tree) : Parser Tree := do
  return .node .objectType [.absent, .node .list (← furtherBounds g (fun _ => true) bound)]

/-- A type between parentheses: a tuple, one type, or a bound. -/
def parenthesisedType (g : Grammar) (plus : Bool) : Parser Tree := do
  let i ← insideOpen .parenthesis (roundType g)
  let group (ts : List Tree) : Tree := .group .parenthesis i.opens i.closes ts
  let t ←
    match i.value with
    | .unit => pure (Tree.node .tupleType [group []])
    | .tuple ts => pure (Tree.node .tupleType [group ts])
    | .object b => roundObject g (.node .parenBound [group [b]])
    | .one t => do
        let bound := if plus && startsOperator "+" (← ahead)
          then boundOfRound? (fun b => group [b]) t else none
        match bound with
        | some b => roundObject g b
        | none => pure (Tree.node .parenType [group [t]])
  i.finish
  return t

/-! ## Functions -/

/-- The calling convention behind `extern`. -/
def abi : Parser Tree := do
  let w ← wordTree "extern"
  if startsString (← ahead) then return .node .abi [w, ← literal]
  else return .node .abi [w, .absent]

/-- The calling convention, if one comes next. -/
def abi? : Parser Tree := do
  if startsWord "extern" (← ahead) then abi else return .absent

/-- Does a name or `_` come next? -/
def startsWild (ts : List Token) : Bool := startsName ts || startsWord "_" ts

/-- Do the dots of further inputs come next, with or without a name? -/
def startsVariadic (ts : List Token) : Bool :=
  startsOperator "..." ts
    || (startsWild ts && startsOperator ":" (skip ts) && startsOperator "..." (skip (skip ts)))

/-- The mark of further inputs of a function type. -/
def functionVariadic (attributes : List Attribute) : Parser Tree := do
  let name ←
    if startsWild (← ahead) then do
      let i ← anyWord
      pure (Tree.node .list (.token i.token :: (← operatorTrees ":")))
    else pure .absent
  let dots ← operatorTrees "..."
  let comma ← operator? ","
  return .node .variadic ([attributesTree attributes, name] ++ dots ++ Tree.ofTokens comma)

/-- One input of a function type.  The first one may be a receiver; with `mut`
before it, it is kept as written. -/
def functionInput (g : Grammar) (first : Bool) (attributes : List Attribute) : Parser Tree := do
  let before ← ahead
  let isMutSelf (ts : List Token) : Bool :=
    first && startsWord "mut" ts && startsWord "self" (skip ts)
  let mutSelf := isMutSelf before
  if mutSelf then let _ ← word "mut"
  let ts ← ahead
  let named := (startsWild ts || (first && startsWord "self" ts))
    && startsOperator ":" (skip ts) && !startsOperator "::" (skip ts)
  let name ←
    if named then do
      let i ← anyWord
      pure (Tree.node .list (.token i.token :: (← operatorTrees ":")))
    else pure .absent
  if isMutSelf (← ahead) && !(named && startsWord "self" ts) then
    let _ ← word "mut"
    let _ ← word "self"
    return .node .functionInput [attributesTree attributes, .absent, ← verbatimSince before]
  else if mutSelf && !named then
    let _ ← word "self"
    return .node .functionInput [attributesTree attributes, .absent, ← verbatimSince before]
  else
    let t ← g.type true
    if mutSelf then
      return .node .functionInput [attributesTree attributes, .absent, ← verbatimSince before]
    else return .node .functionInput [attributesTree attributes, name, t]

/-- The inputs of a function type, up to the dots of further ones. -/
def functionInputs (g : Grammar) : (fuel : Nat) → (first : Bool) → Parser (List Tree)
  | 0, _ => return []
  | fuel + 1, first => do
      if (← ahead).isEmpty then return []
      let attributes ← outerAttributes g
      if startsVariadic (← ahead) then return [← functionVariadic attributes]
      let x ← functionInput g first attributes
      if (← ahead).isEmpty then return [x]
      let comma ← operatorTrees ","
      return x :: comma ++ (← functionInputs g fuel false)

def functionType (g : Grammar) (binder : Tree) : Parser Tree := do
  let safety ← optionalWord "unsafe"
  let convention ← abi?
  let w ← wordTree "fn"
  let inputs ← insideOpen .parenthesis do functionInputs g (← steps) true
  let result ← output g false
  inputs.finish
  return .node .functionType
    [binder, safety, convention, w, inputs.tree .parenthesis, result]

/-! ## All types -/

def typeStarts : List String :=
  ["`for`", "parentheses", "`fn`", "`unsafe`", "`extern`", "identifier", "`::`", "`<`", "`dyn`",
   "square brackets", "`*`", "`&`", "`!`", "`impl`", "`_`", "lifetime"]

def boundTypeStarts : List String :=
  ["identifier", "`fn`", "`unsafe`", "`extern`", "`super`", "`self`", "`Self`", "`crate`"]

/-- A type behind the parameters that `for` binds; `before` stood ahead of those. -/
def typeBehindBinder (g : Grammar) (plus : Bool) (before : List Token) (binder : Tree) :
    Parser Tree := do
  let ts ← ahead
  if startsOneOf ["fn", "unsafe", "extern"] ts then functionType g binder
  else if startsBuiltin ts then builtinCall before
  else if startsName ts || startsOneOf pathWords ts then typeOfPath g plus binder
  else failExpecting boundTypeStarts

def squareType (g : Grammar) : Parser Tree := do
  let content : Parser (Kind × List Tree) := do
    let t ← g.type true
    if startsOperator ";" (← ahead) then
      let semicolon ← operatorTrees ";"
      return (.arrayType, t :: semicolon ++ [← whole g])
    else return (.sliceType, [t])
  let i ← inside .bracket content
  return .node i.value.1 [.group .bracket i.opens i.closes i.value.2]

def pointerType (g : Grammar) : Parser Tree := do
  let star ← operatorTrees "*"
  let ts ← ahead
  if startsWord "const" ts then
    return .node .pointerType (star ++ [← wordTree "const", ← g.type false])
  else if startsWord "mut" ts then
    return .node .pointerType (star ++ [← wordTree "mut", ← g.type false])
  else failExpecting ["`const`", "`mut`"]

def referenceType (g : Grammar) : Parser Tree := do
  let ampersand ← operatorTrees "&"
  let l ← lifetime?
  let m ← optionalWord "mut"
  return .node .referenceType (ampersand ++ [l, m, ← g.type false])

def typeOf (g : Grammar) (plus : Bool) : Parser Tree := do
  let ts ← ahead
  if startsWord "for" ts then typeBehindBinder g plus ts (← binder? g)
  else if startsGroup .parenthesis ts then parenthesisedType g plus
  else if startsOneOf ["fn", "unsafe", "extern"] ts then functionType g .absent
  else if startsBuiltin ts then builtinCall ts
  else if startsPath ts then typeOfPath g plus .absent
  else if startsWord "dyn" ts then dynType g plus
  else if startsGroup .bracket ts then squareType g
  else if startsOperator "*" ts then pointerType g
  else if startsOperator "&" ts then referenceType g
  else if startsOperator "!" ts && !startsOperator "=" ts then
    return .node .neverType (← operatorTrees "!")
  else if startsWord "impl" ts then implType g plus
  else if startsWord "_" ts then return .node .inferredType [← wordTree "_"]
  else if startsLifetime ts then lifetimeType g
  else failExpecting typeStarts

end LogInterface.Parser
