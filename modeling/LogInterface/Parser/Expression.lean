/-
# Parser.Expression -- expressions

An operand carries operators in front of it and trailers behind it; what stands
between operands is climbed.  At the start of a statement or of a match arm a
block ends the expression, unless a point or a question mark follows.
-/
import LogInterface.Parser.Operand

namespace LogInterface.Parser

set_option autoImplicit false

def referenceOperand (g : Grammar) (structs : Bool) : Parser Tree := do
  let ampersand ← operatorTrees "&"
  let ts ← ahead
  if startsWord "raw" ts && startsOneOf ["mut", "const"] (skip ts) then
    let raw ← wordTree "raw"
    let i ← anyWord
    return .node .rawReference (ampersand ++ [raw, .token i.token, ← g.unary structs])
  else
    let mutability ← optionalWord "mut"
    return .node .referenceExpr (ampersand ++ [mutability, ← g.unary structs])

def unaryOperators : List String := ["*", "!", "-"]

/-- An operand and what follows it, behind the attributes that were read since
`before`. -/
def operandWithTrailers (g : Grammar) (structs : Bool) (before : List Token)
    (attributes : List Attribute) : Parser Tree := do
  let place ← here
  let e ← trailers g (← steps) (← operand g structs)
  if e.is .verbatim then verbatimSince before
  else if e.isRange && !attributes.isEmpty then
    failAt place
      (.rule "attributes are not allowed on range expressions starting with `..`")
  else return withAttributes attributes e

/-- An operand with the operators in front of it and what follows it. -/
def unaryOf (g : Grammar) (structs : Bool) : Parser Tree := do
  let before ← ahead
  let attributes ← outerAttributes g
  let ts ← ahead
  if startsOperator "&" ts then
    return withAttributes attributes (← referenceOperand g structs)
  else
    match unaryOperators.find? (startsOperator · ts) with
    | some operator =>
        let sign ← operatorTrees operator
        return withAttributes attributes (.node .unary (sign ++ [← g.unary structs]))
    | none => operandWithTrailers g structs before attributes

def expressionOf (g : Grammar) (structs : Bool) : Parser Tree := do
  operatorsBehind g structs 0 (← g.unary structs)

/-- An expression that a block at its start can end. -/
def earlyOf (g : Grammar) : Parser Tree := do
  let attributes ← outerAttributes g
  if startsBlockLike (← ahead) then
    let b ← blockLike g
    let ts ← ahead
    if (startsOperator "." ts && !startsOperator ".." ts) || startsOperator "?" ts then
      let e ← trailers g (← steps) b
      operatorsBehind g true 0 (withAttributes attributes e)
    else return withAttributes attributes b
  else operatorsBehind g true 0 (withAttributes attributes (← g.unary true))

end LogInterface.Parser
