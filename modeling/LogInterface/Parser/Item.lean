/-
# Parser.Item -- the items of a file

Which item comes next is decided by its first words behind the visibility.  An
item that starts with a name is a macro call.  An item that can be read but means
nothing is kept as written, with the attributes in front of it.
-/
import LogInterface.Parser.Data
import LogInterface.Parser.Import

namespace LogInterface.Parser

set_option autoImplicit false

/-! ## Values and types -/

def staticItem (g : Grammar) (before : List Token) (attributes : List Attribute) :
    Parser Tree := do
  let seen ← visibility
  let w ← wordTree "static"
  let mutability ← optionalWord "mut"
  let i ← name
  if startsOperator "=" (← ahead) then
    let _ ← operator "="
    let _ ← whole g
    let _ ← operator ";"
    return ← verbatimSince before
  let colon ← operatorTrees ":"
  let t ← g.type true
  if startsOperator ";" (← ahead) then
    let _ ← operator ";"
    return ← verbatimSince before
  let equals ← operatorTrees "="
  let e ← whole g
  return .node .staticItem
    [attributesTree attributes, seen, w, mutability, .token i.token, .node .list colon, t,
      .node .list equals, e, .node .list (← operatorTrees ";")]

/-- A constant, which needs a value. -/
def constItem (g : Grammar) (before : List Token) (attributes : List Attribute)
    (seen preset : Tree) : Parser Tree := do
  let d ← constDecl g attributes seen preset
  if d.plain && d.hasValue then return d.tree else verbatimSince before

def typeItem (g : Grammar) (before : List Token) (attributes : List Attribute) :
    Parser Tree := do
  let d ← typeDecl g false .beforeEquals
  if d.colon || d.value.isAbsent then verbatimSince before
  else
    return .node .typeItem
      [attributesTree attributes, d.visibility, d.keyword, d.name, .generics d.generics,
        .orAbsent d.clause, d.value, .node .list d.semicolon]

/-! ## Items with a body -/

def itemHere (g : Grammar) : Parser Tree := do
  let before ← ahead
  g.item before (← outerAttributes g)

/-- A function, which needs a body. -/
def functionItem (g : Grammar) (before : List Token) (attributes : List Attribute)
    (allowDefault : Bool) : Parser Tree := do
  let seen ← visibility
  let preset ← if allowDefault then optionalWord "default" else pure .absent
  let s ← signature g
  if startsOperator ";" (← ahead) then
    let _ ← operator ";"
    verbatimSince before
  else
    return .node .functionItem
      [attributesTree attributes, seen, preset, .signature s, ← body g g.statements]

def modItem (g : Grammar) (attributes : List Attribute) : Parser Tree := do
  let seen ← visibility
  let safety ← optionalWord "unsafe"
  let w ← wordTree "mod"
  let i ← if startsWord "try" (← ahead) then anyWord else name
  let start : List Tree := [attributesTree attributes, seen, safety, w, .token i.token]
  let ts ← ahead
  if startsOperator ";" ts then
    return .node .modItem (start ++ [.node .list (← operatorTrees ";")])
  else if startsGroup .brace ts then
    return .node .modItem (start ++ [← body g (many (itemHere g))])
  else failExpecting ["`;`", "curly braces"]

/-- A macro that is declared in the second way, behind its visibility. -/
def macroItem (before : List Token) : Parser Tree := do
  let _ ← word "macro"
  let _ ← name
  let round := startsGroup .parenthesis (← ahead)
  if round then let _ ← rawGroup
  if startsGroup .brace (← ahead) then
    let _ ← rawGroup
    verbatimSince before
  else failExpecting (if round then ["curly braces"] else ["parentheses", "curly braces"])

/-! ## Foreign blocks -/

def foreignFunction (g : Grammar) (before : List Token) (attributes : List Attribute) :
    Parser Tree := do
  let seen ← visibility
  let (s, safe) ← signatureWith g true
  if startsGroup .brace (← ahead) then
    let _ ← body g g.statements
    return ← verbatimSince before
  let semicolon ← operatorTrees ";"
  if safe then verbatimSince before
  else
    return .node .functionItem
      [attributesTree attributes, seen, .absent, .signature s, .node .list semicolon]

/-- A foreign variable, which may have no value. -/
def foreignStatic (g : Grammar) (before : List Token) (attributes : List Attribute) :
    Parser Tree := do
  let seen ← visibility
  let unsafety ← word? "unsafe"
  let safe ← if unsafety.isNone then word? "safe" else pure none
  let w ← wordTree "static"
  let mutability ← optionalWord "mut"
  let i ← name
  let colon ← operatorTrees ":"
  let t ← g.type true
  let equals ← operator? "="
  let e ← if equals.isEmpty then pure .absent else whole g
  let semicolon ← operatorTrees ";"
  if unsafety.isSome || safe.isSome || !equals.isEmpty then verbatimSince before
  else
    return .node .staticItem
      [attributesTree attributes, seen, w, mutability, .token i.token, .node .list colon, t,
        .node .list [], e, .node .list semicolon]

/-- A foreign type, which may have no bounds and no definition. -/
def foreignType (g : Grammar) (before : List Token) (attributes : List Attribute) :
    Parser Tree := do
  let d ← typeDecl g false .both
  if d.colon || !d.value.isAbsent then verbatimSince before
  else return d.associated attributes

/-- Does a foreign variable come next? -/
def startsForeignStatic (ts : List Token) : Bool :=
  startsWord "static" ts
    || (startsOneOf ["unsafe", "safe"] ts && startsWord "static" (skip ts))

def foreignMember (g : Grammar) : Parser Tree := do
  let before ← ahead
  let attributes ← outerAttributes g
  let start ← ahead
  let seen ← visibility
  let ts ← ahead
  advance start
  if startsSignature true ts then foreignFunction g before attributes
  else if startsForeignStatic ts then foreignStatic g before attributes
  else if startsWord "type" ts then foreignType g before attributes
  else if seen.isAbsent && startsInvocation ts then invocationItem attributes false
  else
    advance ts
    failExpecting
      (["`fn`", "`static`", "`type`"] ++ if seen.isAbsent then invocationStarts else [])

/-- Foreign functions, variables and types. -/
def foreignItem (g : Grammar) (attributes : List Attribute) : Parser Tree := do
  let safety ← optionalWord "unsafe"
  let convention ← abi
  return .node .foreignItem
    [attributesTree attributes, safety, convention, ← body g (many (foreignMember g))]

/-! ## Implementations -/

def implType? (g : Grammar) (before : List Token) (attributes : List Attribute) :
    Parser Tree := do
  let d ← typeDecl g true .afterEquals
  if d.colon || d.value.isAbsent then verbatimSince before
  else return d.associated attributes

def implMember (g : Grammar) : Parser Tree := do
  let before ← ahead
  let attributes ← outerAttributes g
  let start ← ahead
  let seen ← visibility
  let ts ← ahead
  let preset ←
    if startsOperator "!" (skip ts) then pure .absent else optionalWord "default"
  let behind ← ahead
  let plain := seen.isAbsent && preset.isAbsent
  if startsWord "const" behind && !startsSignature false behind then
    constItem g before attributes seen preset
  else
    advance start
    if startsSignature false behind then functionItem g before attributes true
    else if startsWord "type" behind then implType? g before attributes
    else if plain && startsInvocation behind then invocationItem attributes false
    else
      advance behind
      failExpecting
        ((if preset.isAbsent && !startsWord "default" behind then ["`default`"] else [])
          ++ ["`fn`", "`const`", "`type`"] ++ if plain then invocationStarts else [])

/-- The trait of an implementation, the type that implements it, and whether the
trait is none. -/
def implementer (g : Grammar) : Parser (Tree × Tree × Bool) := do
  let ts ← ahead
  let place ← here
  let negative := startsOperator "!" ts && !startsGroup .brace (skip ts)
  let polarity ← if negative then operatorTrees "!" else pure []
  let first ← g.type true
  match ← word? "for" with
  | none =>
      if negative then failAt place (.rule "inherent impls cannot be negative")
      return (.absent, first, false)
  | some p =>
      let named := match first with
        | .node .pathType [q] => q.is .path
        | _ => false
      return (.node .asTrait [.node .list polarity, first, .token (.ident "for" p)],
        ← g.type true, !named)

/-- An implementation.  It may not be visible nor `const`, and what it implements
has to be a trait. -/
def implItem (g : Grammar) (before : List Token) (attributes : List Attribute) :
    Parser Tree := do
  let seen ← visibility
  let preset ← optionalWord "default"
  let safety ← optionalWord "unsafe"
  let w ← wordTree "impl"
  let params ← if startsGenerics (← ahead) then generics g else pure ⟨[], false⟩
  let ts ← ahead
  let isConst := startsWord "const" ts || (startsOperator "?" ts && startsWord "const" (skip ts))
  if isConst then
    let _ ← operator? "?"
    let _ ← word "const"
  let (ofTrait, type, noTrait) ← implementer g
  let clause ← whereClause? g
  let content ← body g (many (implMember g))
  if !seen.isAbsent || isConst || noTrait then verbatimSince before
  else
    return .node .implItem
      [attributesTree attributes, preset, safety, w, .generics params, ofTrait, type,
        .orAbsent clause, content]

/-! ## Traits -/

/-- A trait that stands for bounds, behind its name. -/
def traitAlias (g : Grammar) (h : TraitHead) : Parser Tree := do
  let equals ← operatorTrees "="
  let stop (ts : List Token) : Bool := startsWord "where" ts || startsOperator ";" ts
  let bounds ← separated stop (g.bound plainForms) "+"
  let clause ← whereClause? g
  return .node .traitAlias
    [attributesTree h.attributes, h.visibility, .token (.ident "trait" h.keyword),
      .token h.name.token, .generics h.generics, .node .list equals, .node .list bounds,
      .orAbsent clause, .node .list (← operatorTrees ";")]

def wholeTrait (g : Grammar) (attributes : List Attribute) : Parser Tree :=
  return .trait (← traitBody g (← traitHead g attributes))

def traitOrAlias (g : Grammar) (attributes : List Attribute) : Parser Tree := do
  let h ← traitHead g attributes
  let ts ← ahead
  if startsGroup .brace ts || startsOperator ":" ts || startsWord "where" ts then
    return .trait (← traitBody g h)
  else if startsOperator "=" ts then traitAlias g h
  else failExpecting ["curly braces", "`:`", "`where`", "`=`"]

/-! ## Choice -/

/-- An item that starts with `extern`; `ts` follows the word. -/
def externItem (g : Grammar) (attributes : List Attribute) (ts : List Token) : Parser Tree := do
  if startsWord "crate" ts then crateItem attributes
  else if startsGroup .brace ts then foreignItem g attributes
  else if startsString ts then
    if startsGroup .brace (skip ts) then foreignItem g attributes
    else
      advance (skip ts)
      failExpecting ["curly braces"]
  else
    advance ts
    failExpecting ["`crate`", "curly braces", "string literal"]

/-- An item that starts with `unsafe`; `ts` follows the word. -/
def unsafeItem (g : Grammar) (before : List Token) (attributes : List Attribute)
    (ts : List Token) : Parser Tree := do
  if startsWord "trait" ts || (startsWord "auto" ts && startsWord "trait" (skip ts)) then
    wholeTrait g attributes
  else if startsWord "impl" ts then implItem g before attributes
  else if startsWord "extern" ts then foreignItem g attributes
  else if startsWord "mod" ts then modItem g attributes
  else
    advance ts
    failExpecting (["`trait`", "`auto`", "`impl`", "`extern`", "`mod`"].filter
      fun choice => !(choice == "`auto`" && startsWord "auto" ts))

def itemStarts : List String :=
  ["`fn`", "`extern`", "`use`", "`static`", "`const`", "`unsafe`", "`mod`", "`type`", "`struct`",
   "`enum`", "`union`", "`trait`", "`auto`", "`impl`", "`default`", "`macro`"]

/-- What an item can start with, without a word that stands there and starts none. -/
def itemChoices (ts : List Token) (visible : Bool) : List String :=
  let here := ["union", "auto", "default"].filter (startsWord · ts)
  itemStarts.filter (fun choice => !(here.map quoted).contains choice)
    ++ if visible then [] else invocationStarts

/-- The rest of an item, given what stood ahead of its attributes, and those. -/
def itemOf (g : Grammar) (before : List Token) (attributes : List Attribute) : Parser Tree := do
  let start ← ahead
  let seen ← visibility
  let ts ← ahead
  if startsWord "macro" ts then return ← macroItem before
  advance start
  if startsSignature false ts then functionItem g before attributes false
  else if startsWord "extern" ts then externItem g attributes (skip ts)
  else if startsWord "use" ts then useItem before attributes
  else if startsWord "static" ts then staticItem g before attributes
  else if startsWord "const" ts then constItem g before attributes (← visibility) .absent
  else if startsWord "unsafe" ts then unsafeItem g before attributes (skip ts)
  else if startsWord "mod" ts then modItem g attributes
  else if startsWord "type" ts then typeItem g before attributes
  else if startsWord "struct" ts then structItem g attributes
  else if startsWord "enum" ts then enumItem g attributes
  else if startsWord "union" ts && startsName (skip ts) then unionItem g attributes
  else if startsWord "trait" ts then traitOrAlias g attributes
  else if startsWord "auto" ts && startsWord "trait" (skip ts) then wholeTrait g attributes
  else if startsWord "impl" ts || (startsWord "default" ts && !startsOperator "!" (skip ts)) then
    implItem g before attributes
  else if seen.isAbsent && startsInvocation ts then invocationItem attributes true
  else
    advance ts
    failExpecting (itemChoices ts !seen.isAbsent)

end LogInterface.Parser
