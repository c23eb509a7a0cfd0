/-
# Parser.Statement -- statements

A statement is a `let`, an item, a macro call or an expression.  An expression
that is not made of a block needs a semicolon unless it is the last statement.
Attributes in front of an expression belong to the operand at its left end.
-/
import LogInterface.Parser.Expression

namespace LogInterface.Parser

set_option autoImplicit false

/-! ## Bindings -/

/-- What stands behind a pattern and an equals sign: an expression, and what to do
where the pattern does not match it. -/
def initialValue (g : Grammar) : Parser (Tree × Tree) := do
  let equals ← operator? "="
  if equals.isEmpty then return (.absent, .absent)
  let e ← g.expression true
  let braced := match e.tokens.getLast? with
    | some (.group .brace _ _ _) => true
    | _ => false
  let orElse ←
    if !braced && startsWord "else" (← ahead) then do
      pure (Tree.node .list [← wordTree "else", ← plainBlock g])
    else pure .absent
  let e := e.settled { laidOut := g.laidOut }
  return (.node .list (Tree.ofTokens equals ++ [e]), orElse)

def letStatement (g : Grammar) (attributes : List Attribute) : Parser Tree := do
  let w ← wordTree "let"
  let p ← g.pattern
  let colon ← operator? ":"
  let typed ← if colon.isEmpty then pure Tree.absent
    else do pure (Tree.node .list (Tree.ofTokens colon ++ [← g.type true]))
  let (value, orElse) ← initialValue g
  return .node .letStmt
    [attributesTree attributes, w, p, typed, value, orElse, .node .list (← operatorTrees ";")]

/-! ## Macro calls -/

/-- What stands behind a plain path, if one comes next; nothing is read. -/
def behindPath : Parser (List Token) := do
  let s ← get
  let behind ← attempt do
    let _ ← plainPath
    ahead
  set s
  return behind.getD []

/-- Does a macro call with a name, which is an item, go on here? -/
def startsNamedCall (behind : List Token) : Bool :=
  startsOperator "!" behind && (startsName (skip behind) || startsWord "try" (skip behind))

/-- Does a macro call with braces, which is a statement, go on here? -/
def startsBracedCall (behind : List Token) : Bool :=
  let group := skip behind
  let next := skip group
  startsOperator "!" behind && startsGroup .brace group
    && !((startsOperator "." next && !startsOperator ".." next) || startsOperator "?" next)

def invocationStatement (attributes : List Attribute) : Parser Tree := do
  let call ← invocationOf (← plainPathTree)
  return .node .invocationStmt [attributesTree attributes, call, ← optionalOperator ";"]

/-! ## Expressions as statements -/

/-- An expression with attributes on the operand at its left end. -/
def attachLeft (as : List Attribute) : Tree → Tree
  | .node .assign (left :: rest) => .node .assign (attachLeft as left :: rest)
  | .node .binary (left :: rest) => .node .binary (attachLeft as left :: rest)
  | .node .castExpr (left :: rest) => .node .castExpr (attachLeft as left :: rest)
  | e => withAttributes as e

/-- The statement that an expression is, with or without a semicolon. -/
def statementOf (g : Grammar) (attributes : List Attribute) (e semicolon : Tree) : Tree :=
  if e.is .invocation && (!semicolon.children.isEmpty || e.endsInBraces) then
    .node .invocationStmt [attributesTree attributes, e, semicolon]
  else .node .exprStmt [(attachLeft attributes e).settled (.ofStatement g.laidOut), semicolon]

def needsSemicolon (t : Tree) : Bool :=
  match t with
  | .node .exprStmt [e, .node .list []] => !e.endsStatement
  | _ => false

/-! ## Statements -/

/-- Does an item start here, and no expression? -/
def startsItem (ts : List Token) : Bool :=
  let next := skip ts
  startsOneOf ["pub", "extern", "use", "fn", "mod", "type", "struct", "enum", "trait", "impl",
      "macro"] ts
    || (startsWord "crate" ts && !startsOperator "::" next)
    || (startsWord "static" ts && (startsWord "mut" next || startsName next))
    || (startsWord "const" ts && !startsGroup .brace next
      && !startsOneOf ["static", "move"] next && !startsOperator "|" next
      && !(startsWord "async" next && !startsOneOf ["unsafe", "extern", "fn"] (skip next)))
    || (startsWord "unsafe" ts && !startsGroup .brace next)
    || (startsWord "async" ts && startsOneOf ["unsafe", "extern", "fn"] next)
    || (startsWord "union" ts && startsName next)
    || (startsWord "auto" ts && startsWord "trait" next)
    || (startsWord "default" ts && startsOneOf ["unsafe", "impl"] next)

def statement (g : Grammar) : Parser Tree := do
  let before ← ahead
  let attributes ← outerAttributes g
  let ts ← ahead
  let behind ← behindPath
  if startsBracedCall behind then invocationStatement attributes
  else if startsWord "let" ts then letStatement g attributes
  else if startsItem ts || startsNamedCall behind then g.item before attributes
  else
    let e ← g.early
    return statementOf g attributes e (← optionalOperator ";")

def statementsWithin (g : Grammar) : (fuel : Nat) → Parser (List Tree)
  | 0 => return []
  | fuel + 1 => do
      let semicolon ← operator? ";"
      if !semicolon.isEmpty then
        return .node .emptyStmt (Tree.ofTokens semicolon) :: (← statementsWithin g fuel)
      else if (← ahead).isEmpty then return []
      else
        let s ← statement g
        if (← ahead).isEmpty then return [s]
        else if needsSemicolon s then failHere (.rule "unexpected token, expected `;`")
        else return s :: (← statementsWithin g fuel)

def statementsOf (g : Grammar) : Parser (List Tree) := do
  statementsWithin g (← steps)

end LogInterface.Parser
