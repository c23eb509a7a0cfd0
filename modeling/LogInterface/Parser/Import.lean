/-
# Parser.Import -- imports

What an item brings into scope: a tree of names behind `use`, or a crate.  Within
a group a name may start at the root, but such an import means nothing and is
kept as written.
-/
import LogInterface.Parser.Trait

namespace LogInterface.Parser

set_option autoImplicit false

def useStarts : List String :=
  ["identifier", "`self`", "`super`", "`crate`", "`try`", "`*`", "curly braces"]

/-- The members of a group, and whether one of them starts at the root. -/
def useMembers (one : Parser (Tree × Bool)) : (fuel : Nat) → Parser (List Tree × Bool)
  | 0 => return ([], false)
  | fuel + 1 => do
      if (← ahead).isEmpty then return ([], false)
      let (t, rooted) ← one
      if (← ahead).isEmpty then return ([t], rooted)
      let comma ← operatorTrees ","
      let (ts, more) ← useMembers one fuel
      return (t :: comma ++ ts, rooted || more)

/-- The tree of an import, and whether a member of it starts at the root.  Only
groups directly behind `use` may have such members, which `root` tells. -/
def useTree : (fuel : Nat) → (root : Bool) → Parser (Tree × Bool)
  | 0, _ => failExpecting []
  | fuel + 1, root => do
      let ts ← ahead
      if startsName ts || startsOneOf ["self", "super", "crate", "try"] ts then
        let i ← anyWord
        let ts ← ahead
        if startsOperator "::" ts then
          let colons ← operatorTrees "::"
          let (t, _) ← useTree fuel false
          return (.node .usePath ([.token i.token] ++ colons ++ [t]), false)
        else if startsWord "as" ts then
          let w ← wordTree "as"
          if startsWild (← ahead) then
            return (.node .useRename [.token i.token, w, .token (← anyWord).token], false)
          else failHere (.rule "expected identifier or underscore")
        else return (.node .useName [.token i.token], false)
      else if startsOperator "*" ts then return (.node .useGlob (← operatorTrees "*"), false)
      else if startsGroup .brace ts then
        let one : Parser (Tree × Bool) := do
          let colons ← if root then operator? "::" else pure []
          let (t, rooted) ← useTree fuel (root && colons.isEmpty)
          return (t, rooted || !colons.isEmpty)
        let i ← inside .brace do useMembers one (← steps)
        return (.node .useGroup [.group .brace i.opens i.closes i.value.1], i.value.2)
      else failExpecting useStarts

/-- An import; `before` stood ahead of its attributes. -/
def useItem (before : List Token) (attributes : List Attribute) : Parser Tree := do
  let seen ← visibility
  let w ← wordTree "use"
  let root ← operator? "::"
  let (t, rooted) ← useTree (← steps) root.isEmpty
  let semicolon ← operatorTrees ";"
  if rooted then verbatimSince before
  else
    return .node .useItem
      [attributesTree attributes, seen, w, .node .list (Tree.ofTokens root), t,
        .node .list semicolon]

def crateItem (attributes : List Attribute) : Parser Tree := do
  let seen ← visibility
  let w ← wordTree "extern"
  let c ← wordTree "crate"
  let i ← if startsWord "self" (← ahead) then anyWord else name
  let rename ←
    match ← word? "as" with
    | none => pure Tree.absent
    | some p => do
        let j ← if startsWord "_" (← ahead) then anyWord else name
        pure (Tree.node .list [.token (.ident "as" p), .token j.token])
  return .node .crateItem
    [attributesTree attributes, seen, w, c, .token i.token, rename,
      .node .list (← operatorTrees ";")]

end LogInterface.Parser
