/-
# Source.Parentheses -- the parentheses an expression needs

An expression is written again as it was read, with few exceptions: a block in
front of the block of a condition, a `let` or a cast that would go on with what
follows, an operation behind attributes.  There an operand gets parentheses that
were not written.

`Surroundings` say what an expression stands in.  `Tree.reach` tells what the end
of an expression does with the operator behind it, `Tree.leftRank` and
`Tree.rightRank` how tightly an operand is held together where it stands, and
`Tree.settled` puts the parentheses in.  It looks at the operands of an expression
alone: what stands between brackets was settled when it was read.
-/
import LogInterface.Source.Expression

namespace LogInterface

set_option autoImplicit false

/-! ## Surroundings -/

/-- What an expression stands in, as far as it can ask for parentheses. -/
structure Surroundings where
  /-- How tightly the operator in front of it binds. -/
  before : Nat := 0
  /-- How tightly the operator behind it binds. -/
  behind : Nat := 0
  /-- It is a statement. -/
  statement : Bool := false
  /-- It starts a statement, and an operator follows. -/
  startsStatement : Bool := false
  /-- It is the body of a match arm. -/
  arm : Bool := false
  /-- It starts the body of a match arm, and an operator follows. -/
  startsArm : Bool := false
  /-- A brace behind it opens the block of a condition. -/
  condition : Bool := false
  /-- It ends a condition. -/
  endsCondition : Bool := false
  /-- It starts what may be missing in a condition. -/
  startsOptional : Bool := false
  /-- The operator behind it could start an operand. -/
  operandFollows : Bool := false
  /-- An operator stands behind it. -/
  operatorFollows : Bool := false
  /-- The operator behind it could open type arguments. -/
  argumentsFollow : Bool := false
  /-- The bodies of closures may be laid out in braces. -/
  laidOut : Bool := false

namespace Surroundings

/-- Inside parentheses nothing else counts. -/
def alone (s : Surroundings) : Surroundings := { laidOut := s.laidOut }

def aloneIf (enclosed : Bool) (s : Surroundings) : Surroundings := if enclosed then s.alone else s

def ofStatement (laidOut : Bool) : Surroundings := { statement := true, laidOut }

/-- The surroundings of the body of a match arm. -/
def ofArm (laidOut : Bool) : Surroundings := { arm := true, laidOut }

def ofCondition (laidOut : Bool) : Surroundings :=
  { condition := true, endsCondition := true, laidOut }

def left (s : Surroundings) (t : Tightness) (operandFollows argumentsFollow : Bool) :
    Surroundings :=
  { s with
    behind := t.rank
    statement := false
    startsStatement := s.statement || s.startsStatement
    arm := false
    startsArm := s.arm || s.startsArm
    endsCondition := false
    operandFollows
    operatorFollows := true
    argumentsFollow }

/-- The surroundings in front of a point or a question mark, which a statement may
go on with. -/
def receiver (s : Surroundings) : Surroundings :=
  { s with
    behind := Tightness.whole.rank
    statement := s.statement || s.startsStatement
    startsStatement := false
    arm := s.arm || s.startsArm
    startsArm := false
    endsCondition := false
    operandFollows := false
    operatorFollows := true
    argumentsFollow := false }

def right (s : Surroundings) (t : Tightness) : Surroundings :=
  { s with
    before := t.rank
    statement := false
    startsStatement := false
    arm := false
    startsArm := false
    startsOptional := false }

/-- The surroundings of a right operand that may be missing. -/
def optional (s : Surroundings) (t : Tightness) : Surroundings :=
  { s.right t with startsOptional := s.condition }

/-- The surroundings of a value, which may be a struct literal. -/
def value (s : Surroundings) : Surroundings := { s.right .jump with condition := false }

def breakValue (s : Surroundings) : Surroundings :=
  { s.optional .jump with condition := false }

end Surroundings

namespace Tree

/-! ## Tightness -/

/-- Does the expression need parentheses whatever operators stand beside it? -/
def standsApart (s : Surroundings) (e : Tree) : Bool :=
  let endsLoosely := match e.bare with
    | .node .breakExpr [_, _, .node .absent _] | .node .pathExpr _
    | .node .range [_, _, .node .absent _] => true
    | _ => false
  (s.startsStatement && e.endsStatement)
    || ((s.startsStatement || s.startsArm) && e.bare.is .letExpr)
    || (s.startsArm && e.isBlockLike)
    || (s.condition && e.bare.is .structExpr)
    || (s.endsCondition && e.bare.isBareJump && !e.bare.is .breakExpr)
    || (s.endsCondition && !s.condition && endsLoosely)
    || (s.startsOptional && e.isPlainBlock)

/-- How tightly an expression is held together by itself. -/
def rank (e : Tree) : Nat :=
  let held := if e.is .attributed then Tightness.sign else .whole
  let tightness : Tightness := match e.bare with
    | .node .closure [_, _, _, _, _, _, _, _, result, _] => if result.isAbsent then .jump else held
    | .node .breakExpr [_, _, value] | .node .returnExpr [_, value]
    | .node .yieldExpr [_, value] => if value.isAbsent then .whole else .jump
    | .node .assign _ => .assign
    | .node .range _ => .range
    | .node .binary [_, operator, _] => operator.tightness
    | .node .letExpr _ => .condition
    | .node .castExpr _ => .cast
    | .node .unary _ | .node .referenceExpr _ | .node .rawReference _ => .sign
    | _ => held
  tightness.rank

/-- Does the expression go on to the end of what it stands in? -/
def goesOn (e : Tree) : Bool :=
  match e with
  | .node .range [start, _, _] => start.isAbsent
  | e => [Kind.breakExpr, .closure, .letExpr, .returnExpr, .yieldExpr].any e.is

/-- Is the expression a cast to a type behind which type arguments could follow? -/
def isOpenCast : Tree → Bool
  | .node .castExpr [_, _, t] => t.endsInName
  | _ => false

/-- How tightly an expression is held together where it stands. -/
def rankIn (s : Surroundings) (e : Tree) : Nat :=
  if s.operandFollows && e.bare.isBareJump then Tightness.jump.rank
  else if !s.operatorFollows && e.bare.goesOn then Tightness.sign.rank
  else if s.argumentsFollow && e.bare.isOpenCast then 0
  else e.rank

/-! ## The end of an expression -/

/-- What the end of an expression does with the operator behind it. -/
inductive Reach where
  /-- It ends, and what is around it cannot take the operator either. -/
  | ends
  /-- It leaves the operator to what is around it. -/
  | yields
  /-- It takes the operator. -/
  | takes
  deriving DecidableEq, Repr

/-- Can the expression be behind the operator in front of it? -/
def followsOperator (s : Surroundings) (e : Tree) : Bool :=
  match e.bare with
  | .node .assign _ => s.before ≤ Tightness.assign.rank
  | .node .binary [_, operator, _] =>
      if operator.tightness = .assign then s.before ≤ Tightness.assign.rank
      else s.before < operator.tightness.rank
  | .node .castExpr _ => s.before < Tightness.cast.rank
  | .node .range [start, _, _] => start.isAbsent || s.before < Tightness.assign.rank
  | _ => true

/-- Can a right operand stand without parentheses if its end does not take what is
behind it? -/
def mayStand (s : Surroundings) (e : Tree) : Bool :=
  let signs := [Tightness.assign, .condition, .sign].map Tightness.rank
  let limits := [Tightness.range, .either, .both].map Tightness.rank
  let looser :=
    if signs.contains s.before then e.rankIn s < s.before else e.rankIn s ≤ s.before
  looser && (!s.operandFollows || limits.contains s.behind) && e.followsOperator s

/-- How tightly a right operand is held together, given what its end does. -/
def rightRankWith (s : Surroundings) (e : Tree) (reach : Reach) : Nat :=
  if e.mayStand s && reach ≠ .takes then Tightness.sign.rank else e.rankIn s

/-- What an expression without operators does, `level` being the tightness of the
operator that it is the last operand of. -/
def Reach.byRank (s : Surroundings) (level : Nat) : Reach :=
  let closer :=
    if level = Tightness.assign.rank || level = Tightness.compare.rank then level ≤ s.behind
    else level < s.behind
  if closer || s.behind = 0 then .takes else .yields

/-- What an operand does that cannot be taken apart. -/
def Reach.ofWhole (s : Surroundings) (level : Nat) : Reach :=
  let loose := s.behind = Tightness.assign.rank || s.behind = Tightness.range.rank
  if level = Tightness.range.rank && loose then .ends
  else if level = Tightness.condition.rank && s.behind < level then .ends
  else .byRank s level

/-- What a jump does, given what the end of its value does. -/
def Reach.ofJump : Reach → Reach
  | .ends => .yields
  | _ => .takes

/-- What a jump without a value does. -/
def Reach.ofBareJump (s : Surroundings) (level : Nat) : Reach :=
  if s.behind = Tightness.assign.rank && level > Tightness.assign.rank then .ends else .takes

/-- What an operation does whose end leaves the operator behind it alone. -/
def Reach.ofEnd (s : Surroundings) : Reach :=
  if s.behind = Tightness.whole.rank then .ends else .yields

/-- What the end of an expression does with the operator behind it, `level` being
the tightness of the operator that it is the last operand of. -/
def reach (s : Surroundings) (level : Nat) : Tree → Reach
  | .node .attributed [attributes, e] =>
      let isOperation := [Kind.assign, .binary, .range, .block].any e.is
      if standsApart s (.node .attributed [attributes, e]) then .byRank s level
      else if isOperation then .ofWhole s level
      else reach s level e
  | .node .assign [_, _, e] =>
      if reach (s.right .assign) Tightness.assign.rank e = .ends then .ofEnd s else .takes
  | .node .binary [_, operator, e] =>
      let t := operator.tightness
      if t = .compare && s.behind = t.rank then .takes
      else
        match reach (s.right t) t.rank e with
        | .yields => .byRank s level
        | .takes => .takes
        | .ends =>
            if t ≠ .assign && rightRankWith (s.right t) e .ends ≤ t.rank then .byRank s level
            else .ofEnd s
  | .node .rawReference [_, _, _, e] | .node .referenceExpr [_, _, e] | .node .unary [_, e] =>
      let inner := s.right .sign
      let sign := Tightness.sign.rank
      match reach inner level e with
      | .yields => .byRank s level
      | .takes => .takes
      | .ends =>
          if e.rankIn inner < sign && !(e.mayStand inner && reach inner sign e ≠ .takes) then
            .byRank s level
          else .ofEnd s
  | .node .range [start, limits, e] =>
      let inner := s.optional .range
      let loose := s.behind = Tightness.assign.rank || s.behind = Tightness.range.rank
      if standsApart s (.node .range [start, limits, e]) then .byRank s level
      else if e.isAbsent then if s.operandFollows then .takes else .ends
      else
        let r := reach inner Tightness.range.rank e
        if r = .takes || (r = .yields && !loose) then .takes
        else if rightRankWith inner e r ≤ Tightness.range.rank then .takes
        else .ends
  | .node .breakExpr [w, label, e] =>
      if standsApart s (.node .breakExpr [w, label, e]) then .byRank s level
      else if e.isAbsent then .ofBareJump s level
      else if label.isAbsent && e.startsWithLabel then .takes
      else .ofJump (reach s.breakValue Tightness.jump.rank e)
  | .node .returnExpr [w, e] =>
      if standsApart s (.node .returnExpr [w, e]) then .byRank s level
      else if e.isAbsent then .ofBareJump s level
      else .ofJump (reach s.value Tightness.jump.rank e)
  | .node .yieldExpr [w, e] =>
      if standsApart s (.node .yieldExpr [w, e]) then .byRank s level
      else if e.isAbsent then .ofBareJump s level
      else .ofJump (reach s.value Tightness.jump.rank e)
  | .node .closure [_, _, _, _, _, _, _, _, _, e] =>
      if s.laidOut then .takes else .ofJump (reach (s.right .jump) Tightness.jump.rank e)
  | .node .letExpr [w, p, equals, e] =>
      let inner := s.right .condition
      let looser := s.behind < Tightness.condition.rank
      if standsApart s (.node .letExpr [w, p, equals, e]) then .byRank s level
      else
        match reach inner Tightness.condition.rank e with
        | .takes => .takes
        | r =>
            if looser then .yields
            else if rightRankWith inner e r < Tightness.condition.rank then .takes
            else if r = .ends then .yields else .takes
  | e => if standsApart s e then .byRank s level else .ofWhole s level

/-- How tightly a right operand is held together where it stands. -/
def rightRank (s : Surroundings) (e : Tree) : Nat := e.rightRankWith s (e.reach s s.before)

/-- How tightly a left operand is held together where it stands. -/
def leftRank (s : Surroundings) (e : Tree) : Nat :=
  if (!s.operandFollows || s.behind = Tightness.range.rank) && e.reach s 0 = .yields
      && e.followsOperator s then Tightness.whole.rank
  else e.rankIn s

/-- How tightly the left operand of a binary operator has to be held together. -/
def leftLeast (t : Tightness) : Nat :=
  match t with
  | .assign => Tightness.range.rank + 1
  | .compare => Tightness.compare.rank + 1
  | t => t.rank

/-! ## Parentheses -/

/-- Where an operand goes: what it stands in there, and whether it needs parentheses. -/
structure Slot where
  surroundings : Surroundings
  enclosed : Bool

def Slot.within (s : Surroundings) (enclosed : Bool) : Slot := ⟨s.aloneIf enclosed, enclosed⟩

/-- The slot of a left operand that has to be held together at least this tightly. -/
def leftSlot (s : Surroundings) (least : Nat) (e : Tree) : Slot := .within s (e.leftRank s < least)

/-- The slot of the left operand of a binary operator. -/
def firstSlot (s : Surroundings) (operator e : Tree) : Slot :=
  let t := operator.tightness
  let spelling := operator.spelling
  let inner := s.left t (operandStarts.contains spelling) (argumentStarts.contains spelling)
  leftSlot inner (leftLeast t) e

/-- The slot of a right operand that has to be held together at least this tightly. -/
def rightSlot (s : Surroundings) (least : Nat) (e : Tree) : Slot :=
  .within s (e.rightRank s < least)

/-- The slot of the right operand of a binary operator. -/
def lastSlot (s : Surroundings) (operator e : Tree) : Slot :=
  let t := operator.tightness
  rightSlot (s.right t) (if t = .assign then 0 else t.rank + 1) e

/-- The slot of what brackets follow. -/
def headSlot (s : Surroundings) (e : Tree) : Slot :=
  leftSlot (s.left .whole true false) Tightness.whole.rank e

/-- The slot in front of a point or a question mark. -/
def receiverSlot (s : Surroundings) (e : Tree) : Slot :=
  leftSlot s.receiver Tightness.whole.rank e

def signSlot (s : Surroundings) (e : Tree) : Slot :=
  rightSlot (s.right .sign) Tightness.sign.rank e

def attributedSlot (s : Surroundings) (e : Tree) : Slot :=
  if [Kind.assign, .binary, .castExpr, .range].any e.is then .within s true
  else ⟨{ s with startsOptional := s.startsOptional && !e.is .block }, false⟩

/-- An expression with parentheses around the operands that need them. -/
def settled (s : Surroundings) (t : Tree) : Tree :=
  let apart := t.standsApart s
  let s := s.aloneIf apart
  enclosedIf apart <| match t with
  | .node .attributed [attributes, e] =>
      let p := attributedSlot s e
      .node .attributed [attributes, enclosedIf p.enclosed (settled p.surroundings e)]
  | .node .assign [a, equals, b] =>
      let p := leftSlot (s.left .assign false false) (leftLeast .assign) a
      .node .assign
        [enclosedIf p.enclosed (settled p.surroundings a), equals, settled (s.right .assign) b]
  | .node .binary [a, operator, b] =>
      let p := firstSlot s operator a
      let q := lastSlot s operator b
      .node .binary
        [enclosedIf p.enclosed (settled p.surroundings a), operator,
          enclosedIf q.enclosed (settled q.surroundings b)]
  | .node .castExpr [a, w, b] =>
      let p := leftSlot (s.left .cast false false) Tightness.cast.rank a
      .node .castExpr [enclosedIf p.enclosed (settled p.surroundings a), w, b]
  | .node .range [a, limits, b] =>
      let p := leftSlot (s.left .range true false) (Tightness.range.rank + 1) a
      let q := rightSlot (s.optional .range) (Tightness.range.rank + 1) b
      .node .range
        [enclosedIf p.enclosed (settled p.surroundings a), limits,
          enclosedIf q.enclosed (settled q.surroundings b)]
  | .node .letExpr [w, p, equals, a] =>
      let q := rightSlot (s.right .condition) Tightness.condition.rank a
      .node .letExpr [w, p, equals, enclosedIf q.enclosed (settled q.surroundings a)]
  | .node .unary [sign, a] =>
      let p := signSlot s a
      .node .unary [sign, enclosedIf p.enclosed (settled p.surroundings a)]
  | .node .referenceExpr [ampersand, mutability, a] =>
      let p := signSlot s a
      .node .referenceExpr
        [ampersand, mutability, enclosedIf p.enclosed (settled p.surroundings a)]
  | .node .rawReference [ampersand, raw, w, a] =>
      let p := signSlot s a
      .node .rawReference [ampersand, raw, w, enclosedIf p.enclosed (settled p.surroundings a)]
  | .node .call (a :: rest) =>
      let p := headSlot s a
      .node .call (enclosedIf p.enclosed (settled p.surroundings a) :: rest)
  | .node .index (a :: rest) =>
      let p := headSlot s a
      .node .index (enclosedIf p.enclosed (settled p.surroundings a) :: rest)
  | .node .awaitExpr (a :: rest) =>
      let p := receiverSlot s a
      .node .awaitExpr (enclosedIf p.enclosed (settled p.surroundings a) :: rest)
  | .node .fieldAccess (a :: rest) =>
      let p := receiverSlot s a
      .node .fieldAccess (enclosedIf p.enclosed (settled p.surroundings a) :: rest)
  | .node .methodCall (a :: rest) =>
      let p := receiverSlot s a
      .node .methodCall (enclosedIf p.enclosed (settled p.surroundings a) :: rest)
  | .node .tryExpr (a :: rest) =>
      let p := receiverSlot s a
      .node .tryExpr (enclosedIf p.enclosed (settled p.surroundings a) :: rest)
  | .node .closure [binds, constness, fixed, asyncness, capture, opening, inputs, closing, result,
      a] =>
      .node .closure
        [binds, constness, fixed, asyncness, capture, opening, inputs, closing, result,
          settled (s.right .jump) a]
  | .node .breakExpr [w, label, a] =>
      let p := Slot.within s.breakValue (label.isAbsent && a.startsWithLabel)
      .node .breakExpr [w, label, enclosedIf p.enclosed (settled p.surroundings a)]
  | .node .returnExpr [w, a] => .node .returnExpr [w, settled s.value a]
  | .node .yieldExpr [w, a] => .node .yieldExpr [w, settled s.value a]
  | t => t

end Tree

end LogInterface
