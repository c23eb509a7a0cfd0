/-
# Layout.Expression -- expressions

A chain of calls and fields may break before each of its points, except after a
short name at the start of a statement.  A call with one argument that brings its
own brackets takes it without a box.  The body of a closure or of a match arm
takes brackets where it does not fit on the line.  Parentheses that were put around
an operand do not change how it is laid out.
-/
import LogInterface.Layout.Pattern
import LogInterface.Source.Expression

namespace LogInterface.Layout

set_option autoImplicit false

/-! ## Small questions -/

/-- Is the expression a name of at most four bytes? -/
def isShortName : Tree → Bool
  | .node .pathExpr [p] =>
      match singleName? p with
      | some name => Text.byteLength name.toList ≤ 4
      | none => false
  | _ => false

/-- Does the expression bring its own brackets, with no attribute before it? -/
def hasBrackets (t : Tree) : Bool :=
  [Kind.arrayExpr, .asyncBlock, .block, .closure, .constBlock, .structExpr, .tryBlock, .tupleExpr,
    .unsafeBlock].any t.is

/-- Is the expression a literal of a number, a character or a truth value? -/
def isSimpleLiteral (t : Tree) : Bool :=
  match t.bare with
  | .node .literal [.token (.ident _ _)] => true
  | .node .literal [.token (.literal s _)] => (Literal.integer? s).isSome || Literal.isChar s
  | _ => false

/-- Does the condition end in an operator that may break the line? -/
def breaksBeforeBrace : Tree → Bool
  | .node .assign _ | .node .awaitExpr _ | .node .binary _ | .node .castExpr _
  | .node .fieldAccess _ | .node .index _ | .node .methodCall _ => true
  | .node .attributed [_, e] => breaksBeforeBrace e
  | .node .enclosed [.group _ _ _ [e]] => breaksBeforeBrace e
  | .node .breakExpr [_, _, e] => breaksBeforeBrace e
  | .node .call (f :: _) => breaksBeforeBrace f
  | .node .letExpr [_, _, _, e] => breaksBeforeBrace e
  | .node .parenExpr [.group _ _ _ [e]] => breaksBeforeBrace e
  | .node .range [_, _, e] => breaksBeforeBrace e
  | .node .rawReference [_, _, _, e] => breaksBeforeBrace e
  | .node .referenceExpr [_, _, e] => breaksBeforeBrace e
  | .node .returnExpr [_, e] => breaksBeforeBrace e
  | .node .tryExpr (e :: _) => breaksBeforeBrace e
  | .node .unary [_, e] => breaksBeforeBrace e
  | .node .yieldExpr [_, e] => breaksBeforeBrace e
  | _ => false

/-- Does the expression end a statement, so that a semicolon is put behind it? -/
def takesSemicolon (t : Tree) : Bool :=
  match t.bare with
  | .node .assign _ | .node .breakExpr _ | .node .continueExpr _ | .node .returnExpr _
  | .node .yieldExpr _ => true
  | .node .binary [_, operator, _] => compoundOperators.contains operator.spelling
  | _ => false

/-- Does the expression read as a statement between braces?  What stands at its
start may not end one by itself. -/
def readsAsStatement : Tree → Bool
  | .node .attributed [_, e] => readsAsStatement e
  | .node .enclosed [.group _ _ _ [e]] => readsAsStatement e
  | .node .awaitExpr (e :: _) => readsAsStatement e
  | .node .fieldAccess (e :: _) => readsAsStatement e
  | .node .methodCall (e :: _) => readsAsStatement e
  | .node .tryExpr (e :: _) => readsAsStatement e
  | .node .assign (e :: _) => !e.endsStatement && readsAsStatement e
  | .node .binary (e :: _) => !e.endsStatement && readsAsStatement e
  | .node .call (e :: _) => !e.endsStatement && readsAsStatement e
  | .node .castExpr (e :: _) => !e.endsStatement && readsAsStatement e
  | .node .index (e :: _) => !e.endsStatement && readsAsStatement e
  | .node .range (e :: _) => e.isAbsent || (!e.endsStatement && readsAsStatement e)
  | .node .letExpr _ => false
  | _ => true

/-! ## Blocks -/

def attributesInside : Tree → List Attribute
  | .group _ _ _ (attributes :: _) => attributesOf attributes
  | _ => []

def statementsOf : Tree → List Tree
  | .group _ _ _ (_ :: statements) => statements
  | _ => []

/-- The value of a block that holds no more than that. -/
def onlyValue? : List Tree → Option Tree
  | [.node .exprStmt [e, .node .list []]] => some e
  | _ => none

/-- A label in front of a block or a loop. -/
def label : Tree → Commands
  | .node .label (l :: _) => text (lifetimeText l ++ ": ")
  | _ => []

/-- Statements inside braces; a single value may stay on the line. -/
def smallBlock (lay start : Tree → Commands) (block : Tree) : Commands :=
  let attributes := attributesInside block
  let statements := statementsOf block
  let inside :=
    if attributes.isEmpty && statements.isEmpty then []
    else
      space ++ innerAttributes lay attributes
        ++ (match onlyValue? statements with
          | some e => ibox 0 ++ start e ++ close ++ space
          | none => (statements.map lay).flatten)
        ++ outdent
  text "\x7b" ++ inside ++ text "\x7d"

/-- Statements inside braces in a box of their own. -/
def boxedBlock (lay start : Tree → Commands) (block : Tree) : Commands :=
  cbox indentation ++ smallBlock lay start block ++ close

def linesInside (lay : Tree → Commands) (block : Tree) (content : Commands) : Commands :=
  cbox indentation ++ hardBreakIfMore ++ innerAttributes lay (attributesInside block) ++ content
    ++ outdent ++ close

/-- Statements on lines of their own, inside braces that are written already. -/
def statementLines (lay : Tree → Commands) (block : Tree) : Commands :=
  linesInside lay block ((statementsOf block).map lay).flatten

def beforeBrace (lay : Tree → Commands) (e : Tree) : Commands :=
  cbox 0 ++ lay e ++ (if breaksBeforeBrace e then space else text " ") ++ close

/-! ## Calls and chains -/

def elementsOf : Tree → List Tree
  | .group _ _ _ content => elements content
  | _ => []

def callArguments (lay : Tree → Commands) (arguments : Tree) : Commands :=
  let boxed (es : List Tree) : Commands :=
    cbox indentation ++ zeroBreak ++ commaList (es.map lay) ++ outdent ++ close
  text "("
    ++ (match elementsOf arguments with
      | [e] => if hasBrackets e then lay e else boxed [e]
      | es => boxed es)
    ++ text ")"

/-- A break in front of a point. -/
def beforePoint (first : Bool) (receiver : Tree) : Commands :=
  if first && isShortName receiver then [] else [.breakBehindPoint]

/-- A method's name, its type arguments and its arguments. -/
def methodTail (lay : Tree → Commands) (offset : Int) (name turbofish arguments : Tree) :
    Commands :=
  text "." ++ text (tokenText name) ++ segmentArguments lay .expression turbofish ++ cbox offset
    ++ callArguments lay arguments ++ close

/-- A chain without its outer box; `first` if it starts a statement. -/
def chain (lay : Tree → Commands) (first : Bool) : Tree → Commands
  | .node .awaitExpr (e :: _) => chain lay first e ++ beforePoint first e ++ text ".await"
  | .node .call [f, arguments] => chain lay false f ++ callArguments lay arguments
  | .node .fieldAccess [e, _, name] =>
      chain lay first e ++ beforePoint first e ++ text "." ++ text (tokenText name)
  | .node .index [e, .group _ _ _ [i]] => chain lay first e ++ text "[" ++ lay i ++ text "]"
  | .node .methodCall [e, _, name, turbofish, arguments] =>
      chain lay first e ++ beforePoint first e ++ methodTail lay 0 name turbofish arguments
  | .node .tryExpr (e :: _) => chain lay first e ++ text "?"
  | .node .enclosed [.group _ _ _ [e]] => text "(" ++ chain lay first e ++ text ")"
  | e => cbox (-indentation) ++ lay e ++ close

/-- An expression that may be a chain; `first` if it starts a statement. -/
def startOf (lay : Tree → Commands) (first : Bool) : Tree → Commands
  | .node .attributed [attributes, e] => attributesBefore lay attributes ++ startOf lay first e
  | .node .awaitExpr (e :: _) =>
      cbox indentation ++ chain lay first e ++ beforePoint first e ++ text ".await" ++ close
  | .node .call [f, arguments] => startOf lay false f ++ callArguments lay arguments
  | .node .fieldAccess [e, _, name] =>
      cbox indentation ++ chain lay first e ++ beforePoint first e ++ text "."
        ++ text (tokenText name) ++ close
  | .node .methodCall [e, _, name, turbofish, arguments] =>
      cbox indentation ++ chain lay first e ++ beforePoint first e
        ++ methodTail lay (if first && isShortName e then -indentation else 0) name turbofish
          arguments
        ++ close
  | .node .enclosed [.group _ _ _ [e]] => text "(" ++ startOf lay first e ++ text ")"
  | .node .index [e, .group _ _ _ [i]] => startOf lay first e ++ text "[" ++ lay i ++ text "]"
  | .node .tryExpr (e :: _) => startOf lay first e ++ text "?"
  | e => lay e

def start (lay : Tree → Commands) (e : Tree) : Commands := startOf lay true e

/-! ## Branches -/

def ifHead (lay : Tree → Commands) (condition : Tree) : Commands :=
  text "if " ++ cbox (-indentation) ++ beforeBrace lay condition ++ close

/-- What follows the first block of an `if`. -/
def elseBranches (lay : Tree → Commands) : Tree → Commands
  | .node .list [_, .node .ifExpr [_, condition, block, rest]] =>
      text " else " ++ ifHead lay condition ++ smallBlock lay (start lay) block
        ++ elseBranches lay rest
  | .node .list [_, .node .block [_, block]] => text " else " ++ smallBlock lay (start lay) block
  | _ => []

def ifExpr (lay : Tree → Commands) (condition block rest : Tree) : Commands :=
  let blocks :=
    if !rest.isAbsent then smallBlock lay (start lay) block ++ elseBranches lay rest
    else match statementsOf block with
      | [] => text "\x7b\x7d"
      | statements =>
          text "\x7b" ++ hardBreak ++ (statements.map lay).flatten ++ outdent ++ text "\x7d"
  cbox indentation ++ ifHead lay condition ++ blocks ++ close

def lacksElse : Tree → Bool
  | .node .ifExpr [_, _, _, .node .list [_, e]] => lacksElse e
  | .node .ifExpr _ => true
  | _ => false

/-! ## Bodies that may take brackets -/

/-- An expression that takes brackets where it does not fit on the line: braces if
it reads as a statement, else parentheses.  `unbroken` stands behind it where it
fits, and so does `separator` behind parentheses. -/
def bracketed (shown : Commands) (e : Tree) (unbroken separator : String) : Commands :=
  let statement := readsAsStatement e
  cbox indentation ++ [.line { before := if statement then "\x7b" else "(" }] ++ shown
    ++ [.line
      { offset := -indentation
        before := if statement && takesSemicolon e then ";" else ""
        after := if statement then "\x7d" else ")" ++ separator
        unbroken }]
    ++ close

/-- The body of a match arm, without blocks that hold one value alone. -/
def armValue : (fuel : Nat) → Tree → Tree
  | 0, e => e
  | fuel + 1, .node .block [.node .absent a, .group d opens closes (attributes :: statements)] =>
      match attributesOf attributes, onlyValue? statements with
      | [], some e => armValue fuel e
      | _, _ => .node .block [.node .absent a, .group d opens closes (attributes :: statements)]
  | _ + 1, .node .tupleExpr [.group _ opens closes []] =>
      .node .block [.absent, .group .brace opens closes []]
  | _ + 1, e => e

/-- How many blocks stand around a value at most. -/
def blockDepth : Tree → Nat
  | .node .block [_, .group _ _ _ [_, .node .exprStmt [e, _]]] => blockDepth e + 1
  | _ => 1

/-- The body of a match arm.  Attributes in front of a block do not show. -/
def armBody (lay : Tree → Commands) (e : Tree) : Commands :=
  let block (l b : Tree) : Commands :=
    label l ++ text "\x7b" ++ neverBreak ++ statementLines lay b ++ text "\x7d"
  match e with
  | .node .block [l, b] => block l b
  | .node .attributed [_, .node .block [l, b]] => block l b
  | e => neverBreak ++ bracketed (start lay e) e (if e.isBlockLike then "" else ",") ","

def arm (lay : Tree → Commands) : Tree → Commands
  | .node .arm [attributes, p, guard, _, e, _] =>
      attributesBefore lay attributes ++ ibox 0 ++ lay p
        ++ (match guard with
            | .node .list [_, e] => text " if " ++ lay e
            | _ => [])
        ++ text " => " ++ armBody lay (armValue (blockDepth e) e) ++ close
  | _ => []

/-- Can a closure's body stand without brackets? -/
def standsAlone (e : Tree) : Bool := hasBrackets e || e.is .matchExpr || e.is .call

def closure (lay : Tree → Commands) (inputs : List Tree) (result e : Tree) : Commands :=
  let shown :=
    (if inputs.isEmpty then [] else zeroBreak) ++ separated (text "," ++ space) (inputs.map lay)
  if result.isAbsent then
    cbox indentation ++ text "|" ++ shown ++ text "|" ++ space ++ outdent ++ close ++ neverBreak
      ++ if standsAlone e then lay e else bracketed (lay e) e "" ""
  else
    cbox indentation ++ text "|" ++ shown
      ++ (if inputs.isEmpty then [] else trailingComma true ++ outdent) ++ text "|" ++ close
      ++ output lay result ++ text " " ++ neverBreak ++ lay e

/-! ## Brackets -/

def array (lay : Tree → Commands) (es : List Tree) : Commands :=
  if es.isEmpty then text "[]"
  else if es.all isSimpleLiteral then
    cbox indentation ++ text "[" ++ zeroBreak ++ ibox 0
      ++ separated (text "," ++ space) (es.map lay) ++ close ++ trailingComma true ++ outdent
      ++ text "]" ++ close
  else
    text "[" ++ cbox indentation ++ zeroBreak ++ commaList (es.map lay) ++ outdent ++ close
      ++ text "]"

/-- A field of a struct literal, or where the others come from. -/
def fieldValue (lay : Tree → Commands) (last : Bool) : Tree → Commands
  | .node .structRest children =>
      match children.getLast? with
      | some e => if e.isAbsent then [] else text ".." ++ lay e ++ space
      | none => []
  | .node .fieldValue [attributes, name, value] =>
      attributesBefore lay attributes ++ text (tokenText name)
        ++ (match value with
            | .node .list [_, e] => text ": " ++ ibox 0 ++ lay e ++ close
            | _ => [])
        ++ trailingCommaOrSpace last
  | _ => []

/-- The fields of a struct literal without the two dots that give no others. -/
def fieldsOf (fields : List Tree) : List Tree :=
  (elements fields).filter fun f =>
    match f with
    | .node .structRest [_, _, e] => !e.isAbsent
    | _ => true

def structExpr (lay : Tree → Commands) (p : Tree) (fields : List Tree) : Commands :=
  cbox indentation ++ ibox (-indentation) ++ qualifiedPath lay .expression p ++ close
    ++ text " \x7b" ++ spaceIfMore
    ++ ((withLast (fieldsOf fields)).map fun (f, last) => fieldValue lay last f).flatten
    ++ outdent ++ [.closingWithin 34] ++ text "\x7d"

/-! ## Expressions -/

def wordBefore (lay : Tree → Commands) (word : String) (e : Tree) : Commands :=
  text word ++ if e.isAbsent then [] else text " " ++ lay e

/-- An operator with its right operand behind a left one that may break. -/
def spread (lay : Tree → Commands) (left : Tree) (operator : String) (right : Tree) : Commands :=
  ibox indentation ++ ibox (-indentation) ++ lay left ++ close ++ space ++ text operator
    ++ text " " ++ lay right ++ close

/-- A loop: its label, its head, and its block on lines of its own. -/
def loopLines (lay : Tree → Commands) (l : Tree) (head : Commands) (block : Tree) : Commands :=
  label l ++ head ++ text "\x7b" ++ neverBreak ++ statementLines lay block ++ text "\x7d"

def blockExpression (lay : Tree → Commands) : Tree → Commands
  | .node .block [l, block] => label l ++ boxedBlock lay (start lay) block
  | .node .unsafeBlock [_, block] => text "unsafe " ++ boxedBlock lay (start lay) block
  | .node .constBlock [_, block] => text "const " ++ boxedBlock lay (start lay) block
  | .node .tryBlock [_, block] => text "try " ++ boxedBlock lay (start lay) block
  | .node .asyncBlock [_, capture, block] =>
      text "async " ++ wordIf capture "move " ++ boxedBlock lay (start lay) block
  | .node .ifExpr [_, condition, block, rest] => ifExpr lay condition block rest
  | .node .matchExpr [_, e, block] =>
      ibox 0 ++ text "match " ++ beforeBrace lay e ++ text "\x7b" ++ neverBreak
        ++ linesInside lay block
          ((statementsOf block).map fun a => lay a ++ hardBreak).flatten
        ++ text "\x7d" ++ close
  | .node .arm children => arm lay (.node .arm children)
  | .node .forLoop [l, _, p, _, e, block] =>
      let head := text "for " ++ lay p ++ text " in " ++ neverBreak ++ beforeBrace lay e
      ibox 0 ++ loopLines lay l head block ++ close
  | .node .whileLoop [l, _, e, block] =>
      loopLines lay l (text "while " ++ beforeBrace lay e) block
  | .node .loop [l, _, block] =>
      label l ++ text "loop \x7b" ++ statementLines lay block ++ text "\x7d"
  | .node .breakExpr [_, l, e] =>
      wordBefore lay (if l.isAbsent then "break" else "break " ++ lifetimeText l) e
  | .node .continueExpr [_, l] =>
      text (if l.isAbsent then "continue" else "continue " ++ lifetimeText l)
  | .node .returnExpr [_, e] => wordBefore lay "return" e
  | .node .yieldExpr [_, e] => wordBefore lay "yield" e
  | t => pattern lay t

def operatorExpression (lay : Tree → Commands) : Tree → Commands
  | .node .unary [op, e] => text (tokenText op) ++ lay e
  | .node .referenceExpr [_, mutability, e] => text "&" ++ wordIf mutability "mut " ++ lay e
  | .node .rawReference [_, _, word, e] =>
      text "&raw " ++ text (tokenText word) ++ text " " ++ lay e
  | .node .binary [a, operator, b] => spread lay a operator.spelling b
  | .node .castExpr [e, _, t] => spread lay e "as" t
  | .node .assign [a, _, b] => ibox 0 ++ lay a ++ text " = " ++ neverBreak ++ lay b ++ close
  | .node .range [a, limits, b] =>
      (if a.isAbsent then [.blankBehindPoint] else lay a) ++ text limits.spelling
        ++ if b.isAbsent then [] else lay b
  | .node .letExpr [_, p, _, e] =>
      ibox 0 ++ text "let " ++ ibox 0 ++ lay p ++ close ++ text " = " ++ neverBreak ++ lay e
        ++ close
  | t => blockExpression lay t

def expression (lay : Tree → Commands) : Tree → Commands
  | .node .attributed [attributes, e] => attributesBefore lay attributes ++ lay e
  | .node .literal children => text (String.join (children.map tokenText))
  | .node .pathExpr [p] => qualifiedPath lay .expression p
  | .node .inferredExpr _ => text "_"
  | .node .awaitExpr children => startOf lay false (.node .awaitExpr children)
  | .node .call children => startOf lay false (.node .call children)
  | .node .fieldAccess children => startOf lay false (.node .fieldAccess children)
  | .node .methodCall children => startOf lay false (.node .methodCall children)
  | .node .index children => startOf lay false (.node .index children)
  | .node .tryExpr children => startOf lay false (.node .tryExpr children)
  | .node .enclosed [.group _ _ _ [e]] | .node .parenExpr [.group _ _ _ [e]] =>
      text "(" ++ lay e ++ text ")"
  | .node .tupleExpr [.group _ _ _ es] =>
      text "(" ++ cbox indentation ++ zeroBreak ++ tupleElements ((elements es).map lay)
        ++ outdent ++ close ++ text ")"
  | .node .arrayExpr [.group _ _ _ es] => array lay (elements es)
  | .node .repeatExpr [.group _ _ _ [e, _, n]] =>
      text "[" ++ lay e ++ text "; " ++ lay n ++ text "]"
  | .node .structExpr [p, .group _ _ _ fields] => structExpr lay p fields
  | .node .closure [binds, constness, fixed, asyncness, capture, _, .node _ inputs, _, result, e] =>
      ibox 0 ++ binder lay binds ++ wordIf constness "const " ++ wordIf fixed "static "
        ++ wordIf asyncness "async " ++ wordIf capture "move "
        ++ closure lay (elements inputs) result e ++ close
  | t => operatorExpression lay t

end LogInterface.Layout
