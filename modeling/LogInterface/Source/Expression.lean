/-
# Source.Expression -- what expressions are made of

How tightly operators bind, and what can be told of an expression wherever it
stands.  Attributes in front of an expression do not change what it is, so most
questions look through them (`Tree.bare`).
-/
import LogInterface.Source.Tokens

namespace LogInterface

set_option autoImplicit false

/-! ## Tightness -/

/-- How tightly an expression is held together, the loosest first. -/
inductive Tightness where
  | jump | assign | range | either | both | condition | compare | bitEither | bitDiffer | bitBoth
  | shift | sum | product | cast | sign | whole
  deriving DecidableEq, Repr

/-- The tightness as a number, of which zero is left for no operator. -/
def Tightness.rank : Tightness → Nat
  | .jump => 1
  | .assign => 2
  | .range => 3
  | .either => 4
  | .both => 5
  | .condition => 6
  | .compare => 7
  | .bitEither => 8
  | .bitDiffer => 9
  | .bitBoth => 10
  | .shift => 11
  | .sum => 12
  | .product => 13
  | .cast => 14
  | .sign => 15
  | .whole => 16

def compoundOperators : List String :=
  ["+=", "-=", "*=", "/=", "%=", "^=", "&=", "|=", "<<=", ">>="]

def comparisons : List String := ["==", "<=", "!=", ">=", "<", ">"]

/-- Binary operators and how tightly they bind; longer spellings come first. -/
def binaryOperators : List (String × Tightness) :=
  compoundOperators.map (·, .assign)
    ++ [("&&", .both), ("||", .either), ("<<", .shift), (">>", .shift)]
    ++ comparisons.map (·, .compare)
    ++ [("+", .sum), ("-", .sum), ("*", .product), ("/", .product), ("%", .product),
      ("^", .bitDiffer), ("&", .bitBoth), ("|", .bitEither)]

/-- How tightly the binary operator of this spelling binds. -/
def Tightness.ofSpelling (spelling : String) : Tightness :=
  match binaryOperators.find? (·.1 == spelling) with
  | some (_, t) => t
  | none => .whole

/-- Binary operators that can stand in front of an operand too. -/
def operandStarts : List String := ["-", "*", "&&", "||", "&", "|", "<<", "<"]

/-- Binary operators that can open type arguments behind a path. -/
def argumentStarts : List String := ["<<", "<"]

namespace Tree

/-! ## Parts -/

/-- An expression without the attributes in front of it. -/
def bare : Tree → Tree
  | .node .attributed [_, e] => e
  | e => e

def spelling (operator : Tree) : String :=
  String.ofList (operator.tokens.filterMap fun t =>
    match t with
    | .punct c _ _ => some c
    | _ => none)

/-- How tightly a binary operator binds. -/
def tightness (operator : Tree) : Tightness := .ofSpelling operator.spelling

/-- An expression in parentheses that were not written. -/
def enclosed (e : Tree) : Tree := .node .enclosed [.group .parenthesis .nowhere .nowhere [e]]

/-- An expression, in parentheses if it needs them. -/
def enclosedIf (needed : Bool) (e : Tree) : Tree := if needed then e.enclosed else e

/-! ## Questions -/

def isRange (e : Tree) : Bool := e.bare.is .range

def isComparison : Tree → Bool
  | .node .binary [_, operator, _] => comparisons.contains operator.spelling
  | _ => false

/-- Has the block neither a label nor attributes? -/
def isPlainBlock : Tree → Bool
  | .node .block [.node .absent _, .group _ _ _ (.node .attributes [] :: _)] => true
  | _ => false

/-- Do braces end the macro call? -/
def endsInBraces (call : Tree) : Bool :=
  match call.children.getLast? with
  | some (.group .brace _ _ _) => true
  | _ => false

/-- Does the expression end a match arm by itself? -/
def isBlockLike (e : Tree) : Bool :=
  [Kind.ifExpr, .matchExpr, .block, .unsafeBlock, .whileLoop, .loop, .forLoop, .tryBlock,
    .constBlock].any e.bare.is

/-- Does the expression end a statement by itself?  So does a macro call in braces. -/
def endsStatement (e : Tree) : Bool :=
  if e.bare.is .invocation then e.bare.endsInBraces else e.isBlockLike

/-- Does the expression leave a loop or a body without a value? -/
def isBareJump : Tree → Bool
  | .node .breakExpr [_, _, .node .absent _] => true
  | .node .returnExpr [_, .node .absent _] => true
  | .node .yieldExpr [_, .node .absent _] => true
  | _ => false

def startsWithLabel : Tree → Bool
  | .node .attributed [_, e] => startsWithLabel e
  | .node .block (l :: _) => !l.isAbsent
  | .node .forLoop (l :: _) => !l.isAbsent
  | .node .whileLoop (l :: _) => !l.isAbsent
  | .node .loop (l :: _) => !l.isAbsent
  | .node .assign (e :: _) => startsWithLabel e
  | .node .awaitExpr (e :: _) => startsWithLabel e
  | .node .binary (e :: _) => startsWithLabel e
  | .node .call (e :: _) => startsWithLabel e
  | .node .castExpr (e :: _) => startsWithLabel e
  | .node .fieldAccess (e :: _) => startsWithLabel e
  | .node .index (e :: _) => startsWithLabel e
  | .node .methodCall (e :: _) => startsWithLabel e
  | .node .range (e :: _) => startsWithLabel e
  | .node .tryExpr (e :: _) => startsWithLabel e
  | _ => false

/-- Does the type end in a name, behind which type arguments could follow? -/
def endsInName (t : Tree) : Bool :=
  match t.tokens.getLast? with
  | some (.ident text _) => text != "_"
  | _ => false

end Tree

end LogInterface
