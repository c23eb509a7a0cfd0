/-
# Parser.Pattern -- patterns

The patterns of parameters, `let` statements and match arms.  `patternOf` reads a
pattern without alternatives at its top; inside brackets alternatives are
allowed.  A pattern that starts with `box` is kept as written.
-/
import LogInterface.Parser.Type

namespace LogInterface.Parser

set_option autoImplicit false

/-! ## Alternatives -/

/-- Does the bar before an alternative come next? -/
def startsAlternative (ts : List Token) : Bool :=
  startsOperator "|" ts && !startsOperator "||" ts && !startsOperator "|=" ts

def furtherAlternatives (g : Grammar) : (fuel : Nat) → Parser (List Tree)
  | 0 => return []
  | fuel + 1 => do
      if startsAlternative (← ahead) then
        let bar ← operatorTrees "|"
        let p ← g.pattern
        return bar ++ [p] ++ (← furtherAlternatives g fuel)
      else return []

/-- Alternatives of patterns, with a bar between each two. -/
def alternatives (g : Grammar) : Parser Tree := do
  let bar ← operator? "|"
  let first ← g.pattern
  let more ← furtherAlternatives g (← steps)
  if bar.isEmpty && more.isEmpty then return first
  return .node .orPattern (Tree.ofTokens bar ++ [first] ++ more)

def patternList (g : Grammar) (d : Delimiter) : Parser Tree :=
  grouped d (commaSeparated (alternatives g))

/-! ## Ranges -/

/-- The dots of a range in an expression. -/
def rangeLimits : Parser (List Tree) := do
  let ts ← ahead
  if startsOperator "..=" ts then operatorTrees "..="
  else if startsOperator "..." ts then failExpecting ["`..=`"]
  else if startsOperator ".." ts then operatorTrees ".."
  else failExpecting ["`..`"]

/-- The dots of a range behind the start of a pattern, where three dots mean that
the end belongs to it. -/
def patternLimits : Parser (List Tree) := do
  if startsOperator "..." (← ahead) then
    let place ← here
    let _ ← operator "..."
    return Tree.ofTokens (Token.operatorAt place ['.', '.', '='])
  else rangeLimits

def constBlock (g : Grammar) : Parser Tree := do
  let w ← wordTree "const"
  return .node .constBlock [w, ← body g g.statements]

/-- Does no end follow the dots of a range in a pattern? -/
def endsPatternRange (ts : List Token) : Bool :=
  ts.isEmpty || startsOperator "|" ts || startsOperator "=" ts
    || (startsOperator ":" ts && !startsOperator "::" ts) || startsOperator "," ts
    || startsOperator ";" ts || startsWord "if" ts

def rangeBound (g : Grammar) : Parser Tree := do
  let ts ← ahead
  if startsLiteral ts then literal
  else if startsPath ts then return .node .pathExpr [← qualifiedPath g true]
  else if startsWord "const" ts then constBlock g
  else failExpecting ["literal", "identifier", "`::`", "`<`", "`self`", "`Self`", "`super`",
    "`crate`", "`const`"]

/-- The end of a range in a pattern, which may be missing only behind two dots. -/
def rangeEnd (g : Grammar) (limits : List Tree) : Parser Tree := do
  if endsPatternRange (← ahead) then
    if limits.length == 2 then return .absent
    else failHere (.rule "expected range upper bound")
  else rangeBound g

def rangeFrom (g : Grammar) (start : Tree) : Parser Tree := do
  let limits ← patternLimits
  return .node .range [start, .node .list limits, ← rangeEnd g limits]

/-- A range without a start; two dots alone stand for the rest. -/
def rangeOrRest (g : Grammar) : Parser Tree := do
  let limits ← rangeLimits
  let last ← rangeEnd g limits
  if last.isAbsent then return .node .restPattern (.absent :: limits)
  else return .node .range [.absent, .node .list limits, last]

/-- A literal, a block of constants, or a range that starts with one. -/
def literalPattern (g : Grammar) : Parser Tree := do
  let start ← rangeBound g
  if startsOperator ".." (← ahead) then rangeFrom g start
  else if start.is .literal then return .node .literalPattern [start]
  else return start

/-! ## Names and paths -/

def identPattern (g : Grammar) : Parser Tree := do
  let byRef ← optionalWord "ref"
  let mutability ← optionalWord "mut"
  let i ← if startsWord "self" (← ahead) then anyWord else name
  let at? ← operator? "@"
  let sub ← if at?.isEmpty then pure Tree.absent
    else do pure (Tree.node .list (Tree.ofTokens at? ++ [← g.pattern]))
  return .node .identPattern [byRef, mutability, .token i.token, sub]

/-- One field of a struct pattern behind its attributes. -/
def fieldPattern (g : Grammar) (attributes : List Attribute) : Parser Tree := do
  let before ← ahead
  let boxed ← word? "box"
  let byRef ← optionalWord "ref"
  let mutability ← optionalWord "mut"
  let plain := boxed.isNone && byRef.isAbsent && mutability.isAbsent
  let member ← if plain then fieldName else do pure (.token (← name).token)
  let numbered : Bool := match member with
    | .token (.literal _ _) => true
    | _ => false
  if numbered || (plain && startsOperator ":" (← ahead)) then
    let colon ← operatorTrees ":"
    return .node .fieldPattern
      [attributesTree attributes, .node .list (member :: colon), ← alternatives g]
  else if boxed.isSome then
    return .node .fieldPattern [attributesTree attributes, .absent, ← verbatimSince before]
  else
    return .node .fieldPattern
      [attributesTree attributes, .absent,
        .node .identPattern [byRef, mutability, member, .absent]]

/-- The fields of a struct pattern, up to what stands for the rest. -/
def fieldPatterns (g : Grammar) : (fuel : Nat) → Parser (List Tree)
  | 0 => return []
  | fuel + 1 => do
      if (← ahead).isEmpty then return []
      let attributes ← outerAttributes g
      if startsOperator ".." (← ahead) then
        return [.node .restPattern (attributesTree attributes :: (← operatorTrees ".."))]
      let x ← fieldPattern g attributes
      if (← ahead).isEmpty then return [x]
      let comma ← operatorTrees ","
      return x :: comma ++ (← fieldPatterns g fuel)

/-- Does a pattern that is a path come next? -/
def startsPathPattern (ts : List Token) : Bool :=
  (startsName ts &&
      (startsOperator "::" (skip ts) || startsOperator "!" (skip ts)
        || startsGroup .brace (skip ts) || startsGroup .parenthesis (skip ts)
        || startsOperator ".." (skip ts)))
    || (startsWord "self" ts && startsOperator "::" (skip ts))
    || startsOperator "::" ts || startsOperator "<" ts
    || startsOneOf ["Self", "super", "crate"] ts

/-- A path, or what is written with one in front. -/
def pathPattern (g : Grammar) : Parser Tree := do
  let p ← qualifiedPath g true
  let ts ← ahead
  if startsBang ts && isPlainPath p then invocationOf p
  else if startsGroup .brace ts then
    return .node .structPattern [p, ← grouped .brace do fieldPatterns g (← steps)]
  else if startsGroup .parenthesis ts then
    return .node .tupleStructPattern [p, ← patternList g .parenthesis]
  else if startsOperator ".." ts then rangeFrom g (.node .pathExpr [p])
  else return .node .pathPattern [p]

/-! ## Brackets -/

/-- Patterns between parentheses: a tuple, or one pattern. -/
def roundPattern (g : Grammar) : Parser Tree := do
  match ← patternList g .parenthesis with
  | .group d opens closes [t] =>
      let kind := if t.is .restPattern then Kind.tuplePattern else .parenPattern
      return .node kind [.group d opens closes [t]]
  | t => return .node .tuplePattern [t]

/-- Is the pattern a range that lacks an end? -/
def isOpenRange : Tree → Bool
  | .node .range [start, _, last] => start.isAbsent || last.isAbsent
  | _ => false

def sliceElement (g : Grammar) : Parser Tree := do
  let p ← alternatives g
  if isOpenRange p then
    let dots := match p.children with
      | [_, limits, _] => limits.place
      | _ => p.place
    failAt dots
      (.rule "range pattern is not allowed unparenthesized inside slice pattern")
  return p

/-! ## All patterns -/

/-- Everything that a pattern can start with; three dots are no rest. -/
def patternStarts (threeDots : Bool) : List String :=
  ["identifier", "`::`", "`<`", "`_`", "literal", "`const`", "`ref`", "`mut`", "`&`",
   "parentheses", "square brackets"] ++ (if threeDots then [] else ["`..`"]) ++ ["`const`"]

/-- A pattern without alternatives at its top. -/
def patternOf (g : Grammar) : Parser Tree := do
  let ts ← ahead
  if startsPathPattern ts then pathPattern g
  else if startsWord "_" ts then return .node .wildPattern [← wordTree "_"]
  else if startsWord "box" ts then
    let _ ← word "box"
    let _ ← g.pattern
    verbatimSince ts
  else if startsOperator "-" ts || startsLiteral ts || startsWord "const" ts then literalPattern g
  else if startsOneOf ["ref", "mut", "self"] ts || startsName ts then identPattern g
  else if startsOperator "&" ts then
    let ampersand ← operatorTrees "&"
    let mutability ← optionalWord "mut"
    return .node .referencePattern (ampersand ++ [mutability, ← g.pattern])
  else if startsGroup .parenthesis ts then roundPattern g
  else if startsGroup .bracket ts then
    return .node .slicePattern [← grouped .bracket (commaSeparated (sliceElement g))]
  else if startsOperator ".." ts && !startsOperator "..." ts then rangeOrRest g
  else failExpecting (patternStarts (startsOperator "..." ts))

end LogInterface.Parser
