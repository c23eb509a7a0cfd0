/-
# Parser.Trait -- traits

The items of a trait, and trait declarations.  An item of a trait that is no plain
method, constant, type or macro call is kept as the tokens it was written with.
-/
import LogInterface.Parser.Member

namespace LogInterface.Parser

set_option autoImplicit false

/-! ## Items of a trait -/

def method (g : Grammar) (attributes : List Attribute) : Parser Method := do
  let s ← signature g
  let ts ← ahead
  if startsGroup .brace ts then
    let content : Parser (List Attribute × List Tree) := do
      let inner ← innerAttributes g
      return (inner, ← g.statements)
    let i ← inside .brace content
    return ⟨attributes ++ i.value.1, s, some (.group .brace i.opens i.closes i.value.2)⟩
  else if startsOperator ";" ts then
    let _ ← operator ";"
    return ⟨attributes, s, none⟩
  else failExpecting ["curly braces", "`;`"]

/-- A constant of a trait; `before` stood ahead of its attributes. -/
def traitConst (g : Grammar) (before : List Token) (attributes : List Attribute) :
    Parser Tree := do
  let d ← constDecl g attributes .absent .absent
  if d.plain then return d.tree else verbatimSince before

/-- An item of a trait behind its attributes; `plain` if nothing else stands
in front of it. -/
def plainTraitItem (g : Grammar) (before : List Token) (attributes : List Attribute)
    (plain : Bool) : Parser TraitItem := do
  let ts ← ahead
  if startsSignature false ts then return .method (← method g attributes)
  else if startsWord "const" ts then
    if startsWild (skip ts) then return .other (← traitConst g before attributes)
    else if startsOneOf ["async", "unsafe", "extern", "fn"] (skip ts) then
      return .method (← method g attributes)
    else
      advance (skip ts)
      failExpecting ["identifier", "`_`", "`async`", "`unsafe`", "`extern`", "`fn`"]
  else if startsWord "type" ts then
    return .other ((← typeDecl g false .afterEquals).associated attributes)
  else if plain && startsInvocation ts then return .other (← invocationItem attributes false)
  else failExpecting (["`fn`", "`const`", "`type`"] ++ if plain then invocationStarts else [])

/-- An item of a trait.  What is declared `pub` or `default` is no method of the
trait and is kept as written. -/
def traitItem (g : Grammar) : Parser TraitItem := do
  let before ← ahead
  let attributes ← outerAttributes g
  let seen ← visibility
  let preset ← word? "default"
  let plain := seen.isAbsent && preset.isNone
  let item ← plainTraitItem g before attributes plain
  if plain then return item else return .other (← verbatimSince before)

/-! ## Traits -/

structure TraitHead where
  attributes : List Attribute
  visibility : Tree
  unsafety : Option Place
  auto : Option Place
  keyword : Place
  name : Ident
  generics : Generics

/-- Reads what stands in front of the supertraits. -/
def traitHead (g : Grammar) (attributes : List Attribute) : Parser TraitHead := do
  let seen ← visibility
  let unsafety ← word? "unsafe"
  let auto ← word? "auto"
  let keyword ← word "trait"
  let i ← name
  return ⟨attributes, seen, unsafety, auto, keyword, i, ← generics g⟩

/-- Does the list of supertraits end here? -/
def endsSupertraits (ts : List Token) : Bool := startsWord "where" ts || startsGroup .brace ts

def traitBody (g : Grammar) (h : TraitHead) : Parser TraitDecl := do
  let colon ← operator? ":"
  let supertraits ←
    if colon.isEmpty then pure []
    else separated endsSupertraits (g.bound { capture := false, const := true }) "+"
  let clause ← whereClause? g
  let content : Parser (List Attribute × List TraitItem) := do
    let inner ← innerAttributes g
    return (inner, ← many (traitItem g))
  let i ← inside .brace content
  return {
    attributes := h.attributes ++ i.value.1
    visibility := h.visibility
    unsafety := h.unsafety
    auto := h.auto
    keyword := h.keyword
    name := h.name
    generics := h.generics
    supertraits := elements supertraits
    trailingPlus := match supertraits.getLast? with
      | some t => !t.isElement
      | none => false
    clause
    items := i.value.2 }

def traitDecl (g : Grammar) : Parser TraitDecl := do
  traitBody g (← traitHead g (← outerAttributes g))

end LogInterface.Parser
