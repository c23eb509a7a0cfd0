/-
# Parser.Grammar -- the recursive parts of the grammar

Types, patterns, expressions and items contain each other.  A `Grammar` holds
one parser for each of them; the parsers of the following modules take a grammar
and use it for what lies deeper, and `Parser.File` ties the knot.

Plain paths, attributes, macro calls and bodies are read here, since they can
stand anywhere.  What the language reads but gives no meaning is kept
`verbatim`, as the tokens it was written with.
-/
import LogInterface.Parser.Stream
import LogInterface.Source.Parentheses

namespace LogInterface

set_option autoImplicit false

/-- The bounds that are allowed besides traits and lifetimes. -/
structure BoundForms where
  /-- A list of what is captured, behind `use`. -/
  capture : Bool
  /-- A trait with `const` before it. -/
  const : Bool

/-- Parsers for the parts that contain each other. -/
structure Grammar where
  /-- A type; `plus` allows bounds that are joined by plus signs. -/
  type : (plus : Bool) → Parser Tree
  /-- A bound. -/
  bound : BoundForms → Parser Tree
  /-- A pattern without alternatives at its top. -/
  pattern : Parser Tree
  /-- An expression; `structs` allows struct literals. -/
  expression : (structs : Bool) → Parser Tree
  /-- An operand with the operators in front of it and what follows it. -/
  unary : (structs : Bool) → Parser Tree
  /-- An expression that a block at its start can end. -/
  early : Parser Tree
  /-- The statements of a block, to its end. -/
  statements : Parser (List Tree)
  /-- The rest of an item, given what stood ahead of its attributes, and those. -/
  item : (before : List Token) → List Attribute → Parser Tree
  /-- Is what is read laid out, and not written as tokens? -/
  laidOut : Bool

def Grammar.nothing (laidOut : Bool) : Grammar where
  type _ := Parser.failExpecting []
  bound _ := Parser.failExpecting []
  pattern := Parser.failExpecting []
  expression _ := Parser.failExpecting []
  unary _ := Parser.failExpecting []
  early := Parser.failExpecting []
  statements := Parser.failExpecting []
  item _ _ := Parser.failExpecting []
  laidOut

namespace Parser

/-! ## Whole expressions -/

def whole (g : Grammar) : Parser Tree :=
  return (← g.expression true).settled { laidOut := g.laidOut }

/-- An expression in front of a block. -/
def condition (g : Grammar) : Parser Tree :=
  return (← g.expression false).settled (.ofCondition g.laidOut)

/-! ## Parts of any node -/

/-- A word that may be missing, as a child. -/
def optionalWord (w : String) : Parser Tree := do
  match ← word? w with
  | some p => return .token (.ident w p)
  | none => return .absent

def wordTree (w : String) : Parser Tree := return .token (.ident w (← word w))

def operatorTrees (op : String) : Parser (List Tree) := return Tree.ofTokens (← operator op)

/-- An operator that may be missing, as a child. -/
def optionalOperator (op : String) : Parser Tree :=
  return .node .list (Tree.ofTokens (← operator? op))

/-- What was read since the tokens `before` stood ahead, as it was written. -/
def verbatimSince (before : List Token) : Parser Tree := do
  let after ← ahead
  return .node .verbatim (Tree.ofTokens (before.take (before.length - after.length)))

/-- Does a call of something built in come next? -/
def startsBuiltin (ts : List Token) : Bool :=
  startsWord "builtin" ts && startsOperator "#" (skip ts)

/-- A call of something built in, which is kept as written since `before` stood ahead. -/
def builtinCall (before : List Token) : Parser Tree := do
  let _ ← word "builtin"
  let _ ← operator "#"
  let _ ← name
  let _ ← inside .parenthesis (advance [])
  verbatimSince before

/-! ## Plain paths -/

/-- The segments of a plain path behind its leading colons. -/
def plainSegments : (fuel : Nat) → Parser (List Ident)
  | 0 => return []
  | fuel + 1 => do
      let ts ← ahead
      if startsName ts || startsOneOf pathWords ts then
        let i ← anyWord
        if (← operator? "::").isEmpty then return [i]
        return i :: (← plainSegments fuel)
      else failHere (.rule "expected path segment after `::`")

/-- A path of identifiers, with no arguments. -/
structure PlainPath where
  rooted : Bool
  segments : List Ident

def plainPath : Parser PlainPath := do
  let root ← operator? "::"
  let ts ← ahead
  if startsName ts || startsOneOf pathWords ts then
    return ⟨!root.isEmpty, ← plainSegments (← steps)⟩
  else
    let i ← name
    return ⟨!root.isEmpty, [i]⟩

/-- A path segment without arguments. -/
def plainSegment (i : Ident) : Tree := .node .segment [.token i.token, .absent]

def PlainPath.tree (p : PlainPath) (place : Place) : Tree :=
  .node .path
    ((if p.rooted then Tree.ofTokens (Token.operatorAt place [':', ':']) else [])
      ++ joinWith (Tree.ofTokens (Token.operator "::")) (p.segments.map fun i => [plainSegment i]))

/-- Reads a path of identifiers as a tree. -/
def plainPathTree : Parser Tree := do
  let place ← here
  return (← plainPath).tree place

/-! ## Fields -/

/-- The number of a field without a name, written out plainly. -/
def fieldNumber (place : Place) (negative : Bool) (written : String) : Parser Tree :=
  match Literal.position negative written with
  | .ok n => return .token (.literal (Nat.repr n) place)
  | .error text => failAt place (.rule text)

def fieldName : Parser Tree := do
  let ts ← ahead
  if startsName ts then return .token (← name).token
  else if startsInteger ts then
    match ts with
    | .literal text p :: rest => advance rest; fieldNumber p false text
    | .punct _ _ p :: .literal text _ :: rest => advance rest; fieldNumber p true text
    | _ => failExpecting []
  else failHere (.rule "expected identifier or integer")

/-! ## Attributes -/

/-- The value of an attribute: a literal alone, or an expression. -/
def attributeValue (g : Grammar) : Parser Tree := do
  let ts ← ahead
  if startsLiteral ts && (startsOperator "-" ts && ts.length == 2 || ts.length == 1) then literal
  else if startsOperator "#" ts && startsGroup .bracket (skip ts) then
    failHere (.rule "unexpected attribute inside of attribute")
  else whole g

def attributeInput (g : Grammar) : Parser AttributeInput := do
  match ← ahead with
  | .group d content opens closes :: rest =>
      advance rest
      return .list d content opens closes
  | ts =>
      if startsOperator "=" ts && !startsOperator "==" ts && !startsOperator "=>" ts then
        let _ ← operator "="
        return .value (← attributeValue g)
      else return .nothing

def attributeContent (g : Grammar) (inner : Bool) (place : Place) : Parser Attribute := do
  if startsWord "unsafe" (← ahead) then
    let i ← anyWord
    return ⟨inner, place, false, [i], ← attributeInput g⟩
  else
    let path ← plainPath
    return ⟨inner, place, path.rooted, path.segments, ← attributeInput g⟩

def oneAttribute (g : Grammar) (inner : Bool) : Parser Attribute := do
  let place ← here
  let _ ← operator "#"
  if inner then let _ ← operator "!"
  return (← inside .bracket (attributeContent g inner place)).value

def outerAttributesWithin (g : Grammar) : (fuel : Nat) → Parser (List Attribute)
  | 0 => return []
  | fuel + 1 => do
      if startsOperator "#" (← ahead) then
        let a ← oneAttribute g false
        return a :: (← outerAttributesWithin g fuel)
      else return []

def outerAttributes (g : Grammar) : Parser (List Attribute) := do
  outerAttributesWithin g (← steps)

def innerAttributesWithin (g : Grammar) : (fuel : Nat) → Parser (List Attribute)
  | 0 => return []
  | fuel + 1 => do
      let ts ← ahead
      if startsOperator "#" ts && startsOperator "!" (skip ts) then
        let a ← oneAttribute g true
        return a :: (← innerAttributesWithin g fuel)
      else return []

def innerAttributes (g : Grammar) : Parser (List Attribute) := do
  innerAttributesWithin g (← steps)

def attributesTree (as : List Attribute) : Tree := .node .attributes (as.map .attribute)

/-- A tree with attributes in front of it, if there are any.  What is kept as
written takes none. -/
def withAttributes (as : List Attribute) (t : Tree) : Tree :=
  if as.isEmpty || t.is .verbatim then t else .node .attributed [attributesTree as, t]

/-! ## Macro calls -/

/-- Does the exclamation mark of a macro call come next? -/
def startsBang (ts : List Token) : Bool := startsOperator "!" ts && !startsOperator "!=" ts

/-- The rest of a macro call behind its path: an exclamation mark and a group. -/
def invocationOf (path : Tree) : Parser Tree := do
  let bang ← operator "!"
  return .node .invocation ([path] ++ Tree.ofTokens bang ++ [← rawGroup])

/-- The end of a macro call that is an item: a semicolon, except behind braces. -/
def invocationEnd (call : Tree) : Parser (List Tree) := do
  if call.endsInBraces then return [] else operatorTrees ";"

/-! ## Bodies -/

/-- A body: the attributes inside, and what follows them. -/
def body (g : Grammar) (content : Parser (List Tree)) : Parser Tree :=
  grouped .brace do
    let inner ← innerAttributes g
    return attributesTree inner :: (← content)

/-- A block that has no attributes inside. -/
def plainBody (g : Grammar) : Parser Tree :=
  grouped .brace do return attributesTree [] :: (← g.statements)

end Parser

end LogInterface
