/-
# Parser.Operand -- operands

What an expression consists of between its operators: literals, paths, brackets,
closures, blocks, loops, and what leaves them.  Where `structs` is false a brace
opens a block and no struct literal.
-/
import LogInterface.Parser.Operator

namespace LogInterface.Parser

set_option autoImplicit false

/-! ## Blocks -/

/-- A block with attributes inside. -/
def fullBody (g : Grammar) : Parser Tree := body g g.statements

/-- A block without a word in front of it. -/
def blockExpr (g : Grammar) (label : Tree) : Parser Tree :=
  return .node .block [label, ← fullBody g]

def plainBlock (g : Grammar) : Parser Tree := return .node .block [.absent, ← plainBody g]

/-- What follows the first block of an `if`. -/
def elseBranch (g : Grammar) (nested : Parser Tree) : Parser Tree := do
  match ← word? "else" with
  | none => return .absent
  | some p =>
      let w := Tree.token (.ident "else" p)
      let ts ← ahead
      if startsWord "if" ts then return .node .list [w, ← nested]
      else if startsGroup .brace ts then return .node .list [w, ← plainBlock g]
      else failExpecting ["`if`", "curly braces"]

/-- An `if`; `fuel` bounds the number of its branches. -/
def ifExpr (g : Grammar) : (fuel : Nat) → Parser Tree
  | 0 => failExpecting []
  | fuel + 1 => do
      let w ← wordTree "if"
      let e ← condition g
      let content ← plainBody g
      return .node .ifExpr [w, e, content, ← elseBranch g (ifExpr g fuel)]

/-- A loop over what an expression gives. -/
def forLoop (g : Grammar) (label : Tree) : Parser Tree := do
  let w ← wordTree "for"
  let p ← alternatives g
  let i ← wordTree "in"
  let e ← condition g
  return .node .forLoop [label, w, p, i, e, ← fullBody g]

def whileLoop (g : Grammar) (label : Tree) : Parser Tree := do
  let w ← wordTree "while"
  let e ← condition g
  return .node .whileLoop [label, w, e, ← fullBody g]

def loopExpr (g : Grammar) (label : Tree) : Parser Tree := do
  let w ← wordTree "loop"
  return .node .loop [label, w, ← fullBody g]

/-- A loop or a block behind a label. -/
def labelled (g : Grammar) : Parser Tree := do
  let l ← lifetime
  let label := Tree.node .label (l :: (← operatorTrees ":"))
  let ts ← ahead
  if startsWord "while" ts then whileLoop g label
  else if startsWord "for" ts then forLoop g label
  else if startsWord "loop" ts then loopExpr g label
  else if startsGroup .brace ts then blockExpr g label
  else failHere (.rule "expected loop or block expression")

def matchArm (g : Grammar) : Parser Tree := do
  let attributes ← outerAttributes g
  let p ← alternatives g
  let guard ←
    match ← word? "if" with
    | some place => do
        pure (Tree.node .list [.token (.ident "if" place), ← whole g])
    | none => pure Tree.absent
  let arrow ← operatorTrees "=>"
  let e ← g.early
  let comma ←
    if e.isBlockLike || (← ahead).isEmpty then optionalOperator ","
    else do pure (Tree.node .list (← operatorTrees ","))
  let e := e.settled (.ofArm g.laidOut)
  return .node .arm [attributesTree attributes, p, guard, .node .list arrow, e, comma]

def matchExpr (g : Grammar) : Parser Tree := do
  let w ← wordTree "match"
  let e ← condition g
  return .node .matchExpr [w, e, ← body g (many (matchArm g))]

/-- Does an expression come next that is made of a block? -/
def startsBlockLike (ts : List Token) : Bool :=
  startsOneOf ["if", "while", "loop", "match", "unsafe"] ts
    || (startsWord "for" ts && !startsGenerics (skip ts))
    || (startsOneOf ["try", "const"] ts && startsGroup .brace (skip ts))
    || startsGroup .brace ts || startsLifetime ts

def blockLike (g : Grammar) : Parser Tree := do
  let ts ← ahead
  if startsWord "if" ts then ifExpr g (← steps)
  else if startsWord "while" ts then whileLoop g .absent
  else if startsWord "for" ts then forLoop g .absent
  else if startsWord "loop" ts then loopExpr g .absent
  else if startsWord "match" ts then matchExpr g
  else if startsWord "try" ts then return .node .tryBlock [← wordTree "try", ← plainBody g]
  else if startsWord "unsafe" ts then
    return .node .unsafeBlock [← wordTree "unsafe", ← fullBody g]
  else if startsWord "const" ts then constBlock g
  else if startsLifetime ts then labelled g
  else blockExpr g .absent

/-! ## Structs, brackets and calls -/

def fieldValue (g : Grammar) : Parser Tree := do
  let attributes ← outerAttributes g
  let member ← fieldName
  let numbered : Bool := match member with
    | .token (.literal _ _) => true
    | _ => false
  if numbered || startsOperator ":" (← ahead) then
    let colon ← operatorTrees ":"
    return .node .fieldValue
      [attributesTree attributes, member, .node .list (colon ++ [← whole g])]
  else return .node .fieldValue [attributesTree attributes, member, .absent]

/-- The fields of a struct literal, up to where the others come from. -/
def fieldValues (g : Grammar) : (fuel : Nat) → Parser (List Tree)
  | 0 => return []
  | fuel + 1 => do
      let ts ← ahead
      if ts.isEmpty then return []
      if startsOperator ".." ts then
        let dots ← operatorTrees ".."
        let e ← if (← ahead).isEmpty then pure Tree.absent else whole g
        return [.node .structRest (dots ++ [e])]
      let x ← fieldValue g
      if (← ahead).isEmpty then return [x]
      let comma ← operatorTrees ","
      return x :: comma ++ (← fieldValues g fuel)

/-- A path, or what is written with one in front. -/
def pathOperand (g : Grammar) (structs : Bool) : Parser Tree := do
  let p ← qualifiedPath g true
  let ts ← ahead
  if startsBang ts && isPlainPath p then invocationOf p
  else if structs && startsGroup .brace ts then
    return .node .structExpr [p, ← grouped .brace do fieldValues g (← steps)]
  else return .node .pathExpr [p]

/-- Expressions between parentheses, as arguments. -/
def argumentList (g : Grammar) : Parser Tree :=
  grouped .parenthesis (commaSeparated (whole g))

/-- Expressions between parentheses: a tuple, or one expression. -/
def roundOperand (g : Grammar) : Parser Tree := do
  match ← argumentList g with
  | .group d opens closes [e] => return .node .parenExpr [.group d opens closes [e]]
  | group => return .node .tupleExpr [group]

/-- Expressions between square brackets: an array, or an element and its count. -/
def squareOperand (g : Grammar) : Parser Tree := do
  let content : Parser (Kind × List Tree) := do
    if (← ahead).isEmpty then return (.arrayExpr, [])
    let first ← whole g
    let ts ← ahead
    if ts.isEmpty then return (.arrayExpr, [first])
    else if startsOperator "," ts then
      let comma ← operatorTrees ","
      return (.arrayExpr, first :: comma ++ (← commaSeparated (whole g)))
    else if startsOperator ";" ts then
      let semicolon ← operatorTrees ";"
      return (.repeatExpr, first :: semicolon ++ [← whole g])
    else failHere (.rule "expected `,` or `;`")
  let i ← inside .bracket content
  return .node i.value.1 [.group .bracket i.opens i.closes i.value.2]

/-! ## Closures -/

def startsClosure (ts : List Token) : Bool :=
  startsOperator "|" ts || startsOneOf ["move", "static"] ts
    || (startsWord "for" ts && startsGenerics (skip ts))
    || (startsWord "const" ts && !startsGroup .brace (skip ts))
    || (startsWord "async" ts && (startsOperator "|" (skip ts) || startsWord "move" (skip ts)))

def closureInput (g : Grammar) : Parser Tree := do
  let attributes ← outerAttributes g
  let p ← g.pattern
  let colon ← operator? ":"
  if colon.isEmpty then return (withAttributes attributes p).settled { laidOut := g.laidOut }
  let t ← g.type true
  return withAttributes attributes (.node .typedPattern (p :: Tree.ofTokens colon ++ [t]))

def closureExpr (g : Grammar) (structs : Bool) : Parser Tree := do
  let binder ← binder? g
  let constness ← optionalWord "const"
  let fixed ← optionalWord "static"
  let asyncness ← optionalWord "async"
  let capture ← optionalWord "move"
  let opening ← operatorTrees "|"
  let inputs ← separated (startsOperator "|") (closureInput g) ","
  let closing ← operatorTrees "|"
  let result ← output g true
  let e ← if result.isAbsent then g.expression structs else plainBlock g
  return .node .closure
    [binder, constness, fixed, asyncness, capture, .node .list opening, .node .list inputs,
      .node .list closing, result, e]

/-! ## Leaving and binding -/

def startsExpression (ts : List Token) : Bool :=
  (startsAnyWord ts && !startsWord "as" ts) || startsGroup .parenthesis ts
    || startsGroup .bracket ts || startsGroup .brace ts || startsLiteral ts
    || (startsOperator "!" ts && !startsOperator "!=" ts)
    || (startsOperator "-" ts && !startsOperator "-=" ts && !startsOperator "->" ts)
    || (startsOperator "*" ts && !startsOperator "*=" ts)
    || (startsOperator "|" ts && !startsOperator "|=" ts)
    || (startsOperator "&" ts && !startsOperator "&=" ts)
    || startsOperator ".." ts
    || (startsOperator "<" ts && !startsOperator "<=" ts && !startsOperator "<<=" ts)
    || startsOperator "::" ts || startsLifetime ts || startsOperator "#" ts

/-- The value that is carried out of a loop or body, if there is one.  It may be a
struct literal wherever it stands. -/
def value? (g : Grammar) : Parser Tree := do
  if startsExpression (← ahead) then g.expression true else return .absent

/-- The end of a loop or block, whose value is no block where `structs` is false.
A label before a loop of its own would be read as the one that is left. -/
def breakExpr (g : Grammar) (structs : Bool) : Parser Tree := do
  let w ← wordTree "break"
  let ts ← ahead
  let place ← here
  if startsLifetime ts && startsOperator ":" (skip ts) then
    let _ ← g.expression true
    failAt place (.rule "parentheses required")
  let label ← lifetime?
  let ts ← ahead
  let e ← if structs || !startsGroup .brace ts then value? g else pure .absent
  return .node .breakExpr [w, label, e]

/-- A pattern that an expression has to match. -/
def letExpr (g : Grammar) (structs : Bool) : Parser Tree := do
  let w ← wordTree "let"
  let p ← alternatives g
  let equals ← operatorTrees "="
  let first ← g.unary structs
  let e ← operatorsBehind g structs Tightness.compare.rank first
  return .node .letExpr [w, p, .node .list equals, e]

/-! ## All operands -/

/-- Does an operand come next that a path starts? -/
def startsPathOperand (ts : List Token) : Bool :=
  startsPath ts
    || (startsWord "try" ts && (startsOperator "!" (skip ts) || startsOperator "::" (skip ts)))

/-- Does a block come next that runs later? -/
def startsAsyncBlock (ts : List Token) : Bool :=
  startsWord "async" ts
    && (startsGroup .brace (skip ts)
      || (startsWord "move" (skip ts) && startsGroup .brace (skip (skip ts))))

def operand (g : Grammar) (structs : Bool) : Parser Tree := do
  let ts ← ahead
  if startsLiteral ts && !startsOperator "-" ts then literal
  else if startsAsyncBlock ts then
    return .node .asyncBlock [← wordTree "async", ← optionalWord "move", ← plainBody g]
  else if startsClosure ts then closureExpr g structs
  else if startsBuiltin ts then builtinCall ts
  else if startsPathOperand ts then pathOperand g structs
  else if startsGroup .parenthesis ts then roundOperand g
  else if startsGroup .bracket ts then squareOperand g
  else if startsWord "break" ts then breakExpr g structs
  else if startsWord "continue" ts then
    return .node .continueExpr [← wordTree "continue", ← lifetime?]
  else if startsWord "return" ts then
    return .node .returnExpr [← wordTree "return", ← value? g]
  else if startsWord "yield" ts then
    return .node .yieldExpr [← wordTree "yield", ← value? g]
  else if startsWord "become" ts then
    let _ ← word "become"
    let _ ← g.expression true
    verbatimSince ts
  else if startsWord "let" ts then letExpr g structs
  else if startsBlockLike ts then blockLike g
  else if startsOperator ".." ts then rangeBehind structs .absent (rightOperand g structs .range)
  else if startsWord "_" ts then return .node .inferredExpr [← wordTree "_"]
  else failHere (.rule "expected an expression")

/-! ## What follows an operand -/

/-- Fields behind a point whose numbers were read as one number with points. -/
def numberedFields (place : Place) (negative : Bool) :
    List String → (receiver : Tree) → (point : List Tree) → Parser Tree
  | [], e, _ => return e
  | part :: parts, e, point => do
      let member ← fieldNumber place negative part
      let next := Tree.ofTokens (Token.operatorAt place ['.'])
      numberedFields place false parts (.node .fieldAccess ([e] ++ point ++ [member])) next

/-- A name or number behind a point: a field, or a method and its arguments. -/
def fieldOrMethod (g : Grammar) (receiver : Tree) (point : List Tree) : Parser Tree := do
  if startsWord "await" (← ahead) then
    return .node .awaitExpr ([receiver] ++ point ++ [← wordTree "await"])
  let named := startsName (← ahead)
  let member ← fieldName
  let turbofish ←
    if named && startsOperator "::" (← ahead) then do angleArguments g (← operator "::")
    else pure Tree.absent
  if named && (!turbofish.isAbsent || startsGroup .parenthesis (← ahead)) then
    return .node .methodCall ([receiver] ++ point ++ [member, turbofish, ← argumentList g])
  else return .node .fieldAccess ([receiver] ++ point ++ [member])

def behindPoint (g : Grammar) (receiver : Tree) (point : List Tree) : Parser Tree := do
  let ts ← ahead
  let place ← here
  if startsFloat ts then
    let negative := startsOperator "-" ts
    let rest := if negative then skip ts else ts
    let parts := match rest with
      | .literal text _ :: _ => text.splitOn "."
      | _ => []
    advance (skip rest)
    let e ← numberedFields place negative (parts.filter (· != "")) receiver point
    if parts.getLast? == some "" then
      fieldOrMethod g e (Tree.ofTokens (Token.operatorAt place ['.']))
    else return e
  else fieldOrMethod g receiver point

/-- Calls, fields, indices and question marks behind an operand. -/
def trailers (g : Grammar) : (fuel : Nat) → Tree → Parser Tree
  | 0, e => return e
  | fuel + 1, e => do
      let ts ← ahead
      if startsGroup .parenthesis ts then
        trailers g fuel (.node .call [e, ← argumentList g])
      else if startsOperator "." ts && !startsOperator ".." ts && !e.isRange then
        let point ← operatorTrees "."
        trailers g fuel (← behindPoint g e point)
      else if startsGroup .bracket ts then
        trailers g fuel (.node .index [e, ← grouped .bracket (return [← whole g])])
      else if startsOperator "?" ts && !e.isRange then
        trailers g fuel (.node .tryExpr (e :: (← operatorTrees "?")))
      else return e

end LogInterface.Parser
