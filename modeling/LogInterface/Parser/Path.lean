/-
# Parser.Path -- paths and their arguments

A path may carry arguments behind each segment: in a type they follow at once,
in an expression behind two more colons.  The arguments of a function trait stand
in parentheses, and only the last segment of a bound has them.

Lifetimes are moved in front of the other arguments, as they are written out.
-/
import LogInterface.Parser.Grammar

namespace LogInterface.Parser

set_option autoImplicit false

/-! ## Order of arguments -/

/-- Elements, each with whether a comma follows it. -/
def withCommas : List Tree → List (Tree × Bool)
  | [] => []
  | x :: .token _ :: rest => (x, true) :: withCommas rest
  | x :: rest => (x, false) :: withCommas rest

/-- Elements with their commas, and a comma put in where one is missing. -/
def joinCommas : (needed : Bool) → List (Tree × Bool) → List Tree
  | _, [] => []
  | needed, (x, comma) :: rest =>
      (if needed then Tree.ofTokens (Token.operator ",") else []) ++ [x]
        ++ (if comma then Tree.ofTokens (Token.operator ",") else []) ++ joinCommas (!comma) rest

def lifetimesFirst (ts : List Tree) : List Tree :=
  let (lifetimes, others) := (withCommas ts).partition (·.1.is .lifetime)
  if lifetimes.isEmpty then ts else joinCommas false (lifetimes ++ others)

/-! ## Arguments -/

/-- Bounds joined by plus signs, until `stop` holds. -/
def boundsUntil (g : Grammar) (stop : List Token → Bool) : Parser (List Tree) := do
  if stop (← ahead) then return []
  chained (fun ts => !stop ts) (g.bound { capture := false, const := true }) "+"

/-- An expression that stands for a constant among type arguments. -/
def constArgument (g : Grammar) : Parser Tree := do
  let ts ← ahead
  if startsLiteral ts then literal
  else if startsName ts then
    return .node .pathExpr [.node .path [plainSegment (← name)]]
  else if startsGroup .brace ts then return .node .block [.absent, ← body g g.statements]
  else failExpecting []

/-- The only segment of a type that is one: its name and its arguments. -/
def onlySegment? (t : Tree) : Option (Tree × Tree) :=
  match t with
  | .node .pathType [.node .path [.node .segment [name, arguments]]] =>
      if arguments.is .roundArguments then none else some (name, arguments)
  | _ => none

/-- What stands behind a name and an equals sign: a constant or a type. -/
def assignedArgument (g : Grammar) (name arguments : Tree) (equals : List Token) :
    Parser Tree := do
  let ts ← ahead
  if startsLiteral ts || startsGroup .brace ts then
    return .node .assocConst ([name, arguments] ++ Tree.ofTokens equals ++ [← constArgument g])
  else return .node .assocType ([name, arguments] ++ Tree.ofTokens equals ++ [← g.type true])

def genericArgument (g : Grammar) : Parser Tree := do
  let ts ← ahead
  if startsLifetime ts && !startsOperator "+" (skip ts) then lifetime
  else if startsLiteral ts || startsGroup .brace ts then constArgument g
  else
    let t ← g.type true
    match onlySegment? t with
    | none => return t
    | some (name, arguments) =>
        let equals ← operator? "="
        if !equals.isEmpty then assignedArgument g name arguments equals
        else
          let colon ← operator? ":"
          if colon.isEmpty then return t
          let bounds ← boundsUntil g fun ts => startsOperator "," ts || startsOperator ">" ts
          return .node .constraint
            [name, arguments, .node .bounds (Tree.ofTokens colon ++ bounds)]

/-- Arguments between angle brackets; `colons` stand before them. -/
def angleArguments (g : Grammar) (colons : List Token) : Parser Tree := do
  let opening ← operatorTrees "<"
  let arguments ← separated (startsOperator ">") (genericArgument g) ","
  let closing ← operatorTrees ">"
  return .node .angleArguments
    (Tree.ofTokens colons ++ opening ++ lifetimesFirst arguments ++ closing)

/-- What a function answers, behind an arrow. -/
def output (g : Grammar) (plus : Bool) : Parser Tree := do
  let arrow ← operator? "->"
  if arrow.isEmpty then return .absent
  return .node .output (Tree.ofTokens arrow ++ [← g.type plus])

def roundArguments (g : Grammar) : Parser Tree := do
  let inputs ← grouped .parenthesis (commaSeparated (g.type true))
  return .node .roundArguments [inputs, ← output g false]

/-! ## Segments -/

def segmentWords : List String := ["super", "self", "crate", "try"]

/-- One segment of a path.  In an expression its arguments stand behind colons. -/
def pathSegment (g : Grammar) (inExpression : Bool) : Parser Tree := do
  if startsOneOf segmentWords (← ahead) then return plainSegment (← anyWord)
  let i ← if startsWord "Self" (← ahead) then anyWord else name
  let ts ← ahead
  if !inExpression && startsOperator "<" ts && !startsOperator "<=" ts
      && !startsOperator "<<=" ts then
    return .node .segment [.token i.token, ← angleArguments g []]
  else if startsOperator "::" ts && startsOperator "<" (skip (skip ts)) then
    let colons ← operator "::"
    return .node .segment [.token i.token, ← angleArguments g colons]
  else return plainSegment i

def moreSegments (g : Grammar) (inExpression : Bool) :
    (fuel : Nat) → Parser (List Tree)
  | 0 => return []
  | fuel + 1 => do
      let ts ← ahead
      if startsOperator "::" ts && !startsGroup .parenthesis (skip (skip ts)) then
        let colons ← operatorTrees "::"
        let s ← pathSegment g inExpression
        return colons ++ [s] ++ (← moreSegments g inExpression fuel)
      else return []

/-! ## Paths -/

def pathChildren (g : Grammar) (inExpression : Bool) : Parser (List Tree) := do
  let root ← operator? "::"
  let first ← pathSegment g inExpression
  return Tree.ofTokens root ++ [first] ++ (← moreSegments g inExpression (← steps))

def path (g : Grammar) (inExpression : Bool) : Parser Tree :=
  return .node .path (← pathChildren g inExpression)

/-- The children of a path, of which the last segment takes arguments. -/
def withLastArguments (arguments : Tree) : List Tree → List Tree
  | [] => []
  | [.node .segment [name, .node .absent _]] => [.node .segment [name, arguments]]
  | t :: ts => t :: withLastArguments arguments ts

/-- Does the last segment lack arguments? -/
def lastIsPlain (children : List Tree) : Bool :=
  match children.getLast? with
  | some (.node .segment [_, arguments]) => arguments.isAbsent
  | _ => false

/-- Do the arguments of a function trait come next? -/
def startsRound (ts : List Token) : Bool :=
  startsGroup .parenthesis ts
    || (startsOperator "::" ts && startsGroup .parenthesis (skip (skip ts)))

/-- The path of a bound: its last segment may have round arguments. -/
def boundPath (g : Grammar) : Parser Tree := do
  let children ← pathChildren g false
  if lastIsPlain children && startsRound (← ahead) then
    let _ ← operator? "::"
    return .node .path (withLastArguments (← roundArguments g) children)
  else return .node .path children

/-- The segments of the path behind a qualified type. -/
def restSegments (g : Grammar) (inExpression : Bool) : (fuel : Nat) → Parser (List Tree)
  | 0 => return []
  | fuel + 1 => do
      let s ← pathSegment g inExpression
      let colons ← operator? "::"
      if colons.isEmpty then return [s]
      return s :: Tree.ofTokens colons ++ (← restSegments g inExpression fuel)

/-- A path, which may start with a qualified type. -/
def qualifiedPath (g : Grammar) (inExpression : Bool) : Parser Tree := do
  if startsOperator "<" (← ahead) then
    let opening ← operatorTrees "<"
    let t ← g.type true
    let asTrait ←
      match ← word? "as" with
      | some p => do pure (Tree.node .asTrait [.token (.ident "as" p), ← path g false])
      | none => pure Tree.absent
    let closing ← operatorTrees ">"
    let colons ← operatorTrees "::"
    let rest ← restSegments g inExpression (← steps)
    let tail := if asTrait.isAbsent then Tree.node .path (colons ++ rest)
      else Tree.node .pathRest (colons ++ rest)
    return .node .qualifiedPath (opening ++ [t, asTrait] ++ closing ++ [tail])
  else path g inExpression

def isPlainPath (path : Tree) : Bool :=
  path.is .path && (elements path.children).all fun s =>
    match s with
    | .node .segment [_, arguments] => arguments.isAbsent
    | _ => false

def startsPath (ts : List Token) : Bool :=
  startsName ts || startsOneOf pathWords ts || startsOperator "::" ts || startsOperator "<" ts

end LogInterface.Parser
