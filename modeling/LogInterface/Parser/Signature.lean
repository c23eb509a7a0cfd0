/-
# Parser.Signature -- visibility and signatures

What stands in front of an item, and the head of a function: its receiver, its
inputs and what it answers.  Only the first input may be a receiver.
-/
import LogInterface.Parser.Statement

namespace LogInterface.Parser

set_option autoImplicit false

/-! ## Visibility -/

/-- The place in which an item can be seen, between parentheses. -/
def visibleIn : Parser (List Tree) := do
  if startsOneOf ["crate", "self", "super"] (← ahead) then return [plainSegment (← anyWord)]
  else
    let w ← wordTree "in"
    return [w, ← plainPathTree]

/-- A visibility; what is not one is left for what follows. -/
def visibility : Parser Tree := do
  match ← word? "pub" with
  | none => return .absent
  | some p =>
      let w := Tree.token (.ident "pub" p)
      let place ←
        match ← ahead with
        | .group .parenthesis content _ _ :: _ =>
            if startsOneOf ["crate", "self", "super"] content && content.length == 1
              || startsWord "in" content then do
              pure [← grouped .parenthesis visibleIn]
            else pure []
        | _ => pure []
      return .node .visibility (w :: place)

/-! ## Inputs -/

/-- A receiver, without the attributes in front of it. -/
def receiver (g : Grammar) (attributes : List Attribute) : Parser Receiver := do
  let place ← here
  let ampersand ← operator? "&"
  let reference := if ampersand.isEmpty then none else some place
  let l ← if ampersand.isEmpty then pure Tree.absent else lifetime?
  let mutability ← word? "mut"
  let self ← word "self"
  let colon ← if ampersand.isEmpty then operator? ":" else pure []
  let type ← if colon.isEmpty then pure none else some <$> g.type true
  return ⟨attributes, reference, l, mutability, self, type⟩

/-- A pattern that is a plain identifier, apart from the others. -/
def patternOfTree : Tree → Pattern
  | .node .identPattern [.node .absent a, .node .absent b, .token (.ident text p),
      .node .absent c] =>
      if a.isEmpty && b.isEmpty && c.isEmpty then .name ⟨text, p⟩
      else .other (.node .identPattern
        [.node .absent a, .node .absent b, .token (.ident text p), .node .absent c])
  | t => .other t

/-- One input of a function, or the mark of further ones. -/
inductive InputOrVariadic where
  | input (i : Input)
  | variadic (t : Tree)

/-- The dots of further inputs, behind a name for them. -/
def variadic (attributes : List Attribute) (name : Tree) : Parser InputOrVariadic := do
  let dots ← operatorTrees "..."
  let comma ← if (← ahead).isEmpty then pure [] else operatorTrees ","
  return .variadic (.node .variadic ([attributesTree attributes, name] ++ dots ++ comma))

/-- Is the pattern the receiver's name? -/
def namesSelf : Tree → Bool
  | .node .identPattern [byRef, _, .token (.ident text _), _] => byRef.isAbsent && text == "self"
  | _ => false

/-- Reads one input of a function.  Further ones cannot be named `self`. -/
def input (g : Grammar) : Parser InputOrVariadic := do
  let attributes ← outerAttributes g
  if startsOperator "..." (← ahead) then return ← variadic attributes .absent
  match ← attempt (receiver g attributes) with
  | some r => return .input (.receiver r)
  | none =>
      let ts ← ahead
      let place ← here
      if startsName ts && startsOperator "<" (skip ts) then
        let wild := Tree.node .wildPattern [.token (.ident "_" place)]
        return .input (.typed attributes (.other wild) (← g.type true))
      let p ← g.pattern
      let colon ← operatorTrees ":"
      if startsOperator "..." (← ahead) && !namesSelf p then
        return ← variadic attributes (.node .list (p :: colon))
      return .input (.typed attributes (patternOfTree p) (← g.type true))

structure Inputs where
  inputs : List Input := []
  trailing : Bool := true
  variadic : Option Tree := none

/-- Fails for a receiver that is not the first input. -/
def onlyFirst (earlier received : Bool) : Input → Parser Unit
  | .receiver r => do
      if received then failAt r.place (.rule "unexpected second method receiver")
      else if earlier then failAt r.place (.rule "unexpected method receiver")
  | .typed _ _ _ => return

def isReceiver : Input → Bool
  | .receiver _ => true
  | .typed _ _ _ => false

/-- Reads the inputs of a function; `earlier` if there were some, `received` if a
receiver was among them. -/
def inputsWithin (g : Grammar) : (fuel : Nat) → (earlier received : Bool) → Parser Inputs
  | 0, _, _ => return {}
  | fuel + 1, earlier, received => do
      if (← ahead).isEmpty then return {}
      match ← input g with
      | .variadic t => return { variadic := some t }
      | .input i =>
          onlyFirst earlier received i
          if (← ahead).isEmpty then return { inputs := [i], trailing := false }
          let _ ← operator ","
          let rest ← inputsWithin g fuel true (received || isReceiver i)
          return { rest with inputs := i :: rest.inputs }

/-! ## Signatures -/

/-- A signature, and whether `safe` stands in it, which only some places allow. -/
def signatureWith (g : Grammar) (allowSafe : Bool) : Parser (Signature × Bool) := do
  let constness ← word? "const"
  let asyncness ← word? "async"
  let unsafety ← word? "unsafe"
  let safe ← if allowSafe && unsafety.isNone then word? "safe" else pure none
  let convention ← abi?
  let keyword ← word "fn"
  let i ← name
  let params ← generics g
  let inputs ← insideOpen .parenthesis do inputsWithin g (← steps) false false
  let result ← output g true
  let clause ← whereClause? g
  inputs.finish
  return ({
    constness, asyncness, unsafety, keyword, clause
    abi := if convention.isAbsent then none else some convention
    name := i
    generics := params
    inputs := inputs.value.inputs
    trailing := inputs.value.trailing
    variadic := inputs.value.variadic
    output := match result with
      | .node .output children => children.getLast?
      | _ => none }, safe.isSome)

def signature (g : Grammar) : Parser Signature := return (← signatureWith g false).1

/-- What follows a word, if it comes next. -/
def skipWord (w : String) (ts : List Token) : List Token :=
  if startsWord w ts then skip ts else ts

/-- Does a signature come next?  Some places allow `safe` in it. -/
def startsSignature (allowSafe : Bool) (ts : List Token) : Bool :=
  let ts := skipWord "async" (skipWord "const" ts)
  let ts := if allowSafe && startsWord "safe" ts then skip ts else skipWord "unsafe" ts
  let ts := if startsWord "extern" ts then
      (if startsString (skip ts) then skip (skip ts) else skip ts)
    else ts
  startsWord "fn" ts

end LogInterface.Parser
