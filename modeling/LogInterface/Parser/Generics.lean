/-
# Parser.Generics -- bounds, generic parameters and clauses

Bounds are joined by plus signs.  Besides traits and lifetimes a bound may be a
list of what is captured or a trait that is `const`, where `BoundForms` allow it.
A `const` bound has no meaning yet and is kept as written.
-/
import LogInterface.Parser.Path

namespace LogInterface.Parser

set_option autoImplicit false

/-! ## Generic parameters -/

/-- A default behind an equals sign, if one comes next. -/
def default? (p : Parser Tree) : Parser Tree := do
  let equals ← operator? "="
  if equals.isEmpty then return .absent
  return .node .defaultValue (Tree.ofTokens equals ++ [← p])

/-- Lifetimes joined by plus signs, until `stop` holds. -/
def lifetimeBounds (stop : List Token → Bool) : Parser (List Tree) := do
  if stop (← ahead) then return []
  chained (fun ts => !stop ts) lifetime "+"

/-- The bounds behind a colon as a child; without a bound there is none. -/
def boundsTree (colon : List Token) (bounds : List Tree) : Tree :=
  if bounds.isEmpty then .absent else .node .bounds (Tree.ofTokens colon ++ bounds)

def lifetimeParam (attributes : List Attribute) : Parser Tree := do
  let l ← lifetime
  let colon ← operator? ":"
  let stop (ts : List Token) : Bool :=
    ts.isEmpty || startsOperator "," ts || startsOperator ">" ts
  let bounds ← if colon.isEmpty then pure [] else lifetimeBounds stop
  return .node .lifetimeParam [attributesTree attributes, l, boundsTree colon bounds]

def typeParam (g : Grammar) (attributes : List Attribute) : Parser Tree := do
  let i ← name
  let colon ← operator? ":"
  let stop (ts : List Token) : Bool :=
    startsOperator "," ts || startsOperator ">" ts || startsOperator "=" ts
  let bounds ← if colon.isEmpty then pure [] else boundsUntil g stop
  return .node .typeParam
    [attributesTree attributes, .token i.token, boundsTree colon bounds,
      ← default? (g.type true)]

def constParam (g : Grammar) (attributes : List Attribute) : Parser Tree := do
  let w ← wordTree "const"
  let i ← name
  let colon ← operatorTrees ":"
  let t ← g.type true
  return .node .constParam
    ([attributesTree attributes, w, .token i.token] ++ colon ++ [t, ← default? (constArgument g)])

/-- One generic parameter, or none of the `choices`. -/
def genericParam (g : Grammar) (choices : List String) (attributes : List Attribute) :
    Parser GenericParam := do
  let ts ← ahead
  if startsLifetime ts then return ⟨.lifetime, ← lifetimeParam attributes⟩
  else if startsName ts then return ⟨.type, ← typeParam g attributes⟩
  else if startsWord "const" ts then return ⟨.const, ← constParam g attributes⟩
  else failExpecting choices

def declaredParam (g : Grammar) : Parser GenericParam := do
  let attributes ← outerAttributes g
  if startsWord "_" (← ahead) then
    let i ← anyWord
    return ⟨.type, .node .typeParam [attributesTree attributes, .token i.token, .absent, .absent]⟩
  else genericParam g ["lifetime", "identifier", "`const`"] attributes

/-- Generic parameters up to the closing bracket. -/
def genericParams (g : Grammar) : (fuel : Nat) → Parser Generics
  | 0 => return ⟨[], false⟩
  | fuel + 1 => do
      if startsOperator ">" (← ahead) then return ⟨[], true⟩
      let p ← declaredParam g
      if startsOperator ">" (← ahead) then return ⟨[p], false⟩
      let _ ← operator ","
      let rest ← genericParams g fuel
      return { rest with params := p :: rest.params }

/-- Generic parameters, if they come next. -/
def generics (g : Grammar) : Parser Generics := do
  if startsOperator "<" (← ahead) then
    let _ ← operator "<"
    let params ← genericParams g (← steps)
    let _ ← operator ">"
    return params
  else return ⟨[], false⟩

/-- Do generic parameters come next, and no qualified type? -/
def startsGenerics (ts : List Token) : Bool :=
  let second := skip ts
  let third := skip second
  startsOperator "<" ts &&
    (startsOperator ">" second || startsOperator "#" second || startsWord "const" second
      || ((startsLifetime second || startsName second) &&
          ((startsOperator ":" third && !startsOperator "::" third)
            || [",", ">", "="].any (startsOperator · third))))

/-! ## Binders -/

def boundParam (g : Grammar) : Parser Tree := do
  let attributes ← outerAttributes g
  return (← genericParam g ["identifier", "lifetime", "`const`"] attributes).tree

/-- `for` and the parameters that it binds, if they come next. -/
def binder? (g : Grammar) : Parser Tree := do
  if startsWord "for" (← ahead) then
    let w ← wordTree "for"
    let opening ← operatorTrees "<"
    let params ← separated (startsOperator ">") (boundParam g) ","
    return .node .forBinder (w :: opening ++ params ++ (← operatorTrees ">"))
  else return .absent

/-! ## Bounds -/

/-- What is captured, up to the closing bracket. -/
def capturedWithin : (fuel : Nat) → Parser (List Tree)
  | 0 => return []
  | fuel + 1 => do
      let ts ← ahead
      if startsOperator ">" ts then return []
      let p ←
        if startsLifetime ts then lifetime
        else if startsName ts || startsWord "Self" ts then do
          pure (Tree.node .list [.token (← anyWord).token])
        else failExpecting ["lifetime", "identifier", "`>`"]
      let ts ← ahead
      if startsOperator ">" ts then return [p]
      else if startsOperator "," ts then
        let comma ← operatorTrees ","
        return p :: comma ++ (← capturedWithin fuel)
      else failExpecting ["`,`", "`>`"]

def captureBound (forms : BoundForms) : Parser Tree := do
  let place ← here
  let w ← wordTree "use"
  let opening ← operatorTrees "<"
  let params ← capturedWithin (← steps)
  let closing ← operatorTrees ">"
  if forms.capture then
    return .node .captureBound (w :: opening ++ lifetimesFirst params ++ closing)
  else failAt place (.rule "`use<...>` precise capturing syntax is not allowed here")

/-- Reads `const` before a bound, with or without brackets; tells whether it was
there. -/
def constMark (forms : BoundForms) : Parser Bool := do
  let ts ← ahead
  let place ← here
  if startsGroup .bracket ts then
    let _ ← inside .bracket (word "const")
    if forms.const then return true
    else failAt place (.rule "`[const]` is not allowed here")
  else if startsWord "const" ts then
    let _ ← word "const"
    if forms.const then return true
    else failAt place (.rule "`const` is not allowed here")
  else return false

/-- A trait bound, and whether it is `const`. -/
def traitBound (g : Grammar) (forms : BoundForms) : Parser (Tree × Bool) := do
  let early ← binder? g
  let isConst ← constMark forms
  let place ← here
  let mark ← operator? "?"
  let binder ← if early.isAbsent && !mark.isEmpty then binder? g else pure early
  let p ← boundPath g
  if !binder.isAbsent && !mark.isEmpty then
    failAt place (.rule "`for<...>` binder not allowed with `?` trait polarity modifier")
  return (.node .traitBound [binder, .node .list (Tree.ofTokens mark), p], isConst)

def boundOf (g : Grammar) (forms : BoundForms) : Parser Tree := do
  let before ← ahead
  if startsLifetime before then lifetime
  else if startsWord "use" before then captureBound forms
  else if startsGroup .parenthesis before then
    let i ← inside .parenthesis (traitBound g forms)
    if i.value.2 then verbatimSince before
    else return .node .parenBound [.group .parenthesis i.opens i.closes [i.value.1]]
  else
    let (b, isConst) ← traitBound g forms
    if isConst then verbatimSince before else return b

/-- Can a further bound start here? -/
def startsBound (forms : BoundForms) (ts : List Token) : Bool :=
  startsAnyWord ts || startsOperator "::" ts || startsOperator "?" ts || startsLifetime ts
    || startsGroup .parenthesis ts || (forms.const && startsGroup .bracket ts)

/-- Bounds joined by plus signs; without `plus` there is only one. -/
def bounds (g : Grammar) (plus : Bool) (forms : BoundForms) : Parser (List Tree) := do
  if plus then chained (startsBound forms) (g.bound forms) "+" else return [← g.bound forms]

/-! ## Clauses -/

/-- Does a `where` clause end here? -/
def endsPredicate (ts : List Token) : Bool :=
  ts.isEmpty || startsGroup .brace ts || startsOperator "," ts || startsOperator ";" ts
    || (startsOperator ":" ts && !startsOperator "::" ts) || startsOperator "=" ts

def wherePredicate (g : Grammar) : Parser Tree := do
  let ts ← ahead
  if startsLifetime ts && startsOperator ":" (skip ts) then
    let l ← lifetime
    let colon ← operatorTrees ":"
    let stop (ts : List Token) : Bool := endsPredicate ts || startsOperator ":" ts
    return .node .lifetimePredicate (l :: colon ++ [.node .list (← lifetimeBounds stop)])
  else
    let binder ← binder? g
    let t ← g.type true
    let colon ← operatorTrees ":"
    return .node .typePredicate
      ([binder, t] ++ colon ++ [.node .list (← boundsUntil g endsPredicate)])

/-- A `where` clause, if one with a predicate comes next. -/
def whereClause? (g : Grammar) : Parser (Option Tree) := do
  match ← word? "where" with
  | none => return none
  | some p =>
      if startsGenerics (← ahead) then
        failHere (.rule "generic parameters on `where` clauses are reserved for future use")
      if endsPredicate (← ahead) then return none
      let predicates ← chained (fun ts => !endsPredicate ts) (wherePredicate g) ","
      return some (.node .whereClause (.token (.ident "where" p) :: predicates))

end LogInterface.Parser
