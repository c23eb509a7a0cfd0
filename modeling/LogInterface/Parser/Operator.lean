/-
# Parser.Operator -- operators between operands

Operators are read by how tightly they bind.  `climb` takes the operators behind
an operand that bind at least as tightly as its base; the right operand of each
first takes what binds tighter than the operator itself.  Assignments group to
the right, everything else to the left.  A range is never the left operand of
another operator, and comparisons do not follow each other.
-/
import LogInterface.Parser.Pattern

namespace LogInterface.Parser

set_option autoImplicit false

/-! ## Operators -/

/-- What can stand behind an operand. -/
inductive Operator where
  | binary (spelling : String) (tightness : Tightness)
  | assign
  | range
  | cast

/-- How tightly it binds. -/
def Operator.rank : Operator → Nat
  | .binary _ t => t.rank
  | .assign => Tightness.assign.rank
  | .range => Tightness.range.rank
  | .cast => Tightness.cast.rank

def operatorAhead? (ts : List Token) : Option Operator :=
  match binaryOperators.find? fun o => startsOperator o.1 ts with
  | some (spelling, t) => some (.binary spelling t)
  | none =>
      if startsOperator "=" ts && !startsOperator "=>" ts then some .assign
      else if startsOperator ".." ts then some .range
      else if startsWord "as" ts then some .cast
      else none

/-- How tightly the operator that comes next binds. -/
def rankAhead (ts : List Token) : Nat := ((operatorAhead? ts).map Operator.rank).getD 0

/-! ## Questions about operands -/

/-- Does a range end here without an end? -/
def endsRange (structs : Bool) (ts : List Token) : Bool :=
  ts.isEmpty || (startsOperator "." ts && !startsOperator ".." ts)
    || (!structs && startsGroup .brace ts) || startsWord "as" ts
    || [",", ";", "?", "=>", "=", "+", "/", "%", "^", ">", "<=", "!=", "-=", "*=", "&=", "|=",
      "<<="].any (startsOperator · ts)

/-- What stands behind a cast and would have to bind tighter than it. -/
def castFollower? (ts : List Token) : Option String :=
  let next := skip ts
  if startsOperator "." ts && !startsOperator ".." ts then
    if startsWord "await" next then some "`.await`"
    else if startsName next
        && (startsGroup .parenthesis (skip next) || startsOperator "::" (skip next)) then
      some "a method call"
    else some "a field access"
  else if startsOperator "?" ts then some "`?`"
  else if startsGroup .bracket ts then some "indexing"
  else if startsGroup .parenthesis ts then some "a function call"
  else none

/-! ## Climbing -/

/-- A right operand behind its first part: it takes what binds tighter than
`level`, and an assignment takes another one. -/
def rightWithin (step : Nat → Tree → Parser Tree) (level : Nat) : (fuel : Nat) → Tree → Parser Tree
  | 0, e => return e
  | fuel + 1, e => do
      let next := rankAhead (← ahead)
      if !e.isRange && (next > level || (next == level && level == Tightness.assign.rank)) then
        rightWithin step level fuel (← step next e)
      else return e

def castTo (g : Grammar) (e : Tree) : Parser Tree := do
  let w ← wordTree "as"
  let t ← g.type false
  match castFollower? (← ahead) with
  | some what => failHere (.rule ("casts cannot be followed by " ++ what))
  | none => return .node .castExpr [e, w, t]

/-- A range behind its start, which may be missing. -/
def rangeBehind (structs : Bool) (start : Tree) (right : Parser Tree) : Parser Tree := do
  let limits ← rangeLimits
  let last ← if limits.length == 2 && endsRange structs (← ahead) then pure .absent else right
  return .node .range [start, .node .list limits, last]

/-- An operand and the operator that comes next, with what stands behind it. -/
def applied (g : Grammar) (structs : Bool) (right : Tightness → Parser Tree) (e : Tree) :
    Operator → Parser Tree
  | .binary spelling t => do
      if t = .compare && e.isComparison then
        failHere (.rule "comparison operators cannot be chained")
      let signs ← operatorTrees spelling
      return .node .binary [e, .node .list signs, ← right t]
  | .assign => do
      let equals ← operatorTrees "="
      return .node .assign [e, .node .list equals, ← right .assign]
  | .range => rangeBehind structs e (right .range)
  | .cast => castTo g e

/-- Takes operators behind an operand that bind at least as tightly as `base`. -/
def climb (g : Grammar) (structs : Bool) : (fuel base : Nat) → Tree → Parser Tree
  | 0, _, e => return e
  | fuel + 1, base, e => do
      match operatorAhead? (← ahead) with
      | none => return e
      | some operator =>
          if e.isRange || operator.rank < base then return e
          else
            let right (t : Tightness) : Parser Tree := do
              rightWithin (fun next e => climb g structs fuel next e) t.rank fuel
                (← g.unary structs)
            climb g structs fuel base (← applied g structs right e operator)

def operatorsBehind (g : Grammar) (structs : Bool) (base : Nat) (e : Tree) : Parser Tree := do
  climb g structs (← steps) base e

def rightOperand (g : Grammar) (structs : Bool) (t : Tightness) : Parser Tree := do
  let fuel ← steps
  rightWithin (climb g structs fuel) t.rank fuel (← g.unary structs)

end LogInterface.Parser
