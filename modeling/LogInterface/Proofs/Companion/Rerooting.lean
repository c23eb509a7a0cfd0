/-
# Proofs.Companion.Rerooting -- one module, named from two places

The module of a method lies two levels below the module of its trait.  There a path that starts
at `self` or `super` would lead somewhere else, so `nestedRuntime` writes it anew.

`ModuleTree.named?` reads the tokens of a path and follows it from a module to the one that it
names.  From the module of a method the new path names what the old one names from the module of
the trait, wherever in the tree that is (`nestedRuntime_names`): the two steps upwards in front
lead back to the trait, and from there both paths go on with the same words (`follow?_above`).
-/
import LogInterface.Proofs.Companion.Shapes

namespace LogInterface

open Token

set_option autoImplicit false

/-! ## Modules -/

/-- A module, by its crate and the names that lead to it from the root, the innermost first. -/
structure ModuleName where
  crate : String
  names : List String
  deriving DecidableEq, Repr

namespace ModuleName

def root (m : ModuleName) : ModuleName := ⟨m.crate, []⟩

/-- The module that is declared in a module under a name. -/
def child (m : ModuleName) (name : String) : ModuleName := ⟨m.crate, name :: m.names⟩

def parent? (m : ModuleName) : Option ModuleName :=
  match m.names with
  | [] => none
  | _ :: names => some ⟨m.crate, names⟩

theorem parent?_child (m : ModuleName) (name : String) : (m.child name).parent? = some m := rfl

end ModuleName

/-- Which modules there are in all crates, and what else the names in a module stand for. -/
structure ModuleTree where
  declared : ModuleName → Bool
  imported : ModuleName → String → Option ModuleName

/-! ## Routes -/

/-- A path as it is followed: does it start with two colons, and its words. -/
structure Route where
  rooted : Bool
  words : List String
  deriving DecidableEq, Repr

/-- Words, each behind two colons. -/
def moreWords? : List Token → Option (List String)
  | [] => some []
  | .punct ':' .joint _ :: .punct ':' .alone _ :: .ident word _ :: rest =>
      (moreWords? rest).map (word :: ·)
  | _ => none

def Route.ofTokens? : List Token → Option Route
  | .ident word _ :: rest => (moreWords? rest).map fun words => ⟨false, word :: words⟩
  | tokens => (moreWords? tokens).map (⟨true, ·⟩)

/-- Words that name nothing in a module: they stand only at the start of a path. -/
def anchorWords : List String := ["crate", "self", "super"]

namespace ModuleTree

def member? (tree : ModuleTree) (m : ModuleName) (name : String) : Option ModuleName :=
  if name ∈ anchorWords then none
  else if tree.declared (m.child name) then some (m.child name)
  else tree.imported m name

def crate? (tree : ModuleTree) (name : String) : Option ModuleName :=
  if name ∈ anchorWords then none
  else if tree.declared ⟨name, []⟩ then some ⟨name, []⟩
  else none

/-- Goes downwards by names. -/
def descend? (tree : ModuleTree) (m : ModuleName) : List String → Option ModuleName
  | [] => some m
  | name :: names => (tree.member? m name).bind fun inner => tree.descend? inner names

/-- Goes upwards as long as the words are `super`, then downwards. -/
def climb? (tree : ModuleTree) (m : ModuleName) : List String → Option ModuleName
  | [] => some m
  | word :: words =>
      if word = "super" then m.parent?.bind fun outer => tree.climb? outer words
      else tree.descend? m (word :: words)

/-- The module that a path leads to from a module. -/
def follow? (tree : ModuleTree) (here : ModuleName) : Route → Option ModuleName
  | ⟨_, []⟩ => none
  | ⟨true, name :: names⟩ => (tree.crate? name).bind fun root => tree.descend? root names
  | ⟨false, word :: words⟩ =>
      if word = "crate" then tree.descend? here.root words
      else if word = "self" then tree.climb? here words
      else if word = "super" then tree.climb? here (word :: words)
      else ((tree.member? here word).or (tree.crate? word)).bind fun m => tree.descend? m words

/-- The module that the tokens of a path name in a module. -/
def named? (tree : ModuleTree) (here : ModuleName) (path : List Token) : Option ModuleName :=
  (Route.ofTokens? path).bind (tree.follow? here)

/-- A path that starts at a crate leads to one module, wherever it stands. -/
theorem follow?_rooted (tree : ModuleTree) (here there : ModuleName) (words : List String) :
    tree.follow? there ⟨true, words⟩ = tree.follow? here ⟨true, words⟩ := by
  cases words <;> rfl

/-- Two steps upwards lead from the module of a method to that of its trait. -/
theorem follow?_above (tree : ModuleTree) (here : ModuleName) (hidden method : String)
    (words : List String) :
    tree.follow? ((here.child hidden).child method) ⟨false, "super" :: "super" :: words⟩
      = tree.climb? here words := by
  simp only [follow?, climb?, ModuleName.parent?_child, Option.bind_some, reduceIte]
  rfl

end ModuleTree

/-! ## Paths of modules -/

/-- A path without arguments: where its root stands, if it has one, its first segment, and the
others with the places of the colons in front of them. -/
structure ModulePath where
  root : Option Place
  first : Ident
  more : List (Place × Ident)

namespace ModulePath

def moreTrees (more : List (Place × Ident)) : List Tree :=
  more.flatMap fun s => Tree.ofTokens (operatorAt s.1 [':', ':']) ++ [Parser.plainSegment s.2]

def tree (p : ModulePath) : Tree :=
  .node .path
    ((p.root.toList.flatMap fun place => Tree.ofTokens (operatorAt place [':', ':']))
      ++ Parser.plainSegment p.first :: moreTrees p.more)

def route (p : ModulePath) : Route :=
  ⟨p.root.isSome, p.first.text :: p.more.map fun s => s.2.text⟩

/-- The path starts at a crate, at the root of its own, or at the module where it stands or
one around it. -/
def IsAnchored (p : ModulePath) : Prop := p.root.isSome ∨ p.first.text ∈ anchorWords

/-- `super` twice, and segments behind it. -/
def above (more : List (Place × Ident)) : ModulePath :=
  ⟨none, ⟨"super", .nowhere⟩, (.nowhere, ⟨"super", .nowhere⟩) :: more⟩

theorem joinWith_cons {α : Type} (separator x : List α) (xs : List (List α)) :
    joinWith separator (x :: xs) = x ++ xs.flatMap (separator ++ ·) := by
  induction xs generalizing x with
  | nil => rw [joinWith, List.flatMap_nil, List.append_nil]
  | cons y ys ih =>
      have next : joinWith separator (x :: y :: ys)
          = x ++ separator ++ joinWith separator (y :: ys) := rfl
      rw [next, ih, List.flatMap_cons, List.append_assoc, List.append_assoc]

/-- A plain path, as annotations name them, is a path of modules. -/
theorem exists_tree_of_plain {p : Parser.PlainPath} (segments : p.segments ≠ []) (place : Place) :
    ∃ q : ModulePath, p.tree place = q.tree ∧
      q.route = ⟨p.rooted, p.segments.map Ident.text⟩ := by
  obtain ⟨rooted, segments'⟩ := p
  obtain ⟨i, rest, rfl⟩ := List.exists_cons_of_ne_nil segments
  refine ⟨⟨if rooted then some place else none, i, rest.map fun i => (.nowhere, i)⟩, ?_, ?_⟩
  · rw [Parser.PlainPath.tree, List.map_cons, joinWith_cons, tree, moreTrees, List.flatMap_map,
      List.flatMap_map]
    cases rooted <;> rfl
  · rw [route, List.map_map]
    cases rooted <;> rfl

theorem moreWords?_moreTrees (more : List (Place × Ident)) :
    moreWords? (treesTokens (moreTrees more)) = some (more.map fun s => s.2.text) := by
  induction more with
  | nil => rfl
  | cons s more ih =>
      have first : moreWords? (treesTokens (moreTrees (s :: more)))
          = (moreWords? (treesTokens (moreTrees more))).map (s.2.text :: ·) := rfl
      rw [first, ih]
      rfl

/-- A path is read from its tokens as it is. -/
theorem ofTokens?_tree (p : ModulePath) : Route.ofTokens? p.tree.tokens = some p.route := by
  obtain ⟨root, first, more⟩ := p
  cases root with
  | none =>
      show (moreWords? (treesTokens (moreTrees more))).map _ = _
      rw [moreWords?_moreTrees]
      rfl
  | some place =>
      show (moreWords? (treesTokens (moreTrees ((place, first) :: more)))).map _ = _
      rw [moreWords?_moreTrees]
      rfl

theorem named?_tree (modules : ModuleTree) (here : ModuleName) (p : ModulePath) :
    modules.named? here p.tree.tokens = modules.follow? here p.route := by
  rw [ModuleTree.named?, ofTokens?_tree]
  rfl

/-- From two levels below, a path behind two `super` climbs from here. -/
theorem named?_above (modules : ModuleTree) (here : ModuleName) (hidden method : String)
    (more : List (Place × Ident)) :
    modules.named? ((here.child hidden).child method) (above more).tree.tokens
      = modules.climb? here (more.map fun s => s.2.text) := by
  rw [named?_tree]
  exact modules.follow?_above here hidden method _

/-! ## The runtime path -/

/-- Segments behind colons that were not read. -/
def unread (more : List (Place × Ident)) : List (Place × Ident) :=
  more.map fun s => (.nowhere, s.2)

theorem elements_moreTrees (more : List (Place × Ident)) :
    elements (moreTrees more) = more.map fun s => Parser.plainSegment s.2 := by
  induction more with
  | nil => rfl
  | cons s more ih =>
      have first : elements (moreTrees (s :: more))
          = Parser.plainSegment s.2 :: elements (moreTrees more) := rfl
      rw [first, ih]
      rfl

theorem nestedRuntime_rooted {p : ModulePath} (rooted : p.root.isSome) :
    nestedRuntime p.tree = (p.tree.tokens, false) := by
  obtain ⟨place, root⟩ := Option.isSome_iff_exists.mp rooted
  rw [tree, root]
  rfl

/-- A path without a root is written anew by its first word. -/
theorem nestedRuntime_relative (first : Ident) (more : List (Place × Ident)) :
    nestedRuntime (tree ⟨none, first, more⟩) =
      if first.text = "crate" then ((tree ⟨none, first, more⟩).tokens, false)
      else if first.text = "self" then ((above (unread more)).tree.tokens, false)
      else if first.text = "super" then ((above ((.nowhere, first) :: more)).tree.tokens, false)
      else ((tree ⟨none, first, more⟩).tokens, true) := by
  have behind : (elements (tree ⟨none, first, more⟩).children).drop 1
      = more.map fun s => Parser.plainSegment s.2 := elements_moreTrees more
  have fromSelf : code "super :: super"
        ++ (more.map fun s => Parser.plainSegment s.2).flatMap (fun s => operator "::" ++ s.tokens)
      = (above (unread more)).tree.tokens := by
    have segments : (more.map fun s => Parser.plainSegment s.2).flatMap
        (fun s => operator "::" ++ s.tokens) = treesTokens (moreTrees (unread more)) := by
      rw [moreTrees, treesTokens_flatMap, unread, List.flatMap_map, List.flatMap_map]
      rfl
    rw [segments]
    rfl
  rw [← fromSelf, ← behind]
  show (if first.text == "crate" then _ else if first.text == "self" then _
    else if first.text == "super" then _ else _) = _
  simp only [beq_iff_eq]
  rfl

/-- Two levels below, a path without a root names what it named, if it starts at an anchor. -/
theorem nestedRuntime_anchored (modules : ModuleTree) (here : ModuleName) (hidden method : String)
    {first : Ident} (anchor : first.text ∈ anchorWords) (more : List (Place × Ident)) :
    modules.named? ((here.child hidden).child method)
        (nestedRuntime (tree ⟨none, first, more⟩)).1
          = modules.follow? here (route ⟨none, first, more⟩) ∧
      (nestedRuntime (tree ⟨none, first, more⟩)).2 = false := by
  rw [nestedRuntime_relative, route, Option.isSome_none, ModuleTree.follow?]
  by_cases root : first.text = "crate"
  · rw [if_pos root, if_pos root, named?_tree, route, Option.isSome_none, ModuleTree.follow?,
      if_pos root]
    exact ⟨rfl, rfl⟩
  by_cases self : first.text = "self"
  · rw [if_neg root, if_pos self, if_neg root, if_pos self, named?_above, unread, List.map_map]
    exact ⟨rfl, rfl⟩
  by_cases outer : first.text = "super"
  · rw [if_neg root, if_neg self, if_pos outer, if_neg root, if_neg self, if_pos outer,
      named?_above]
    exact ⟨rfl, rfl⟩
  · simp [anchorWords, root, self, outer] at anchor

theorem nestedRuntime_free {first : Ident} (free : first.text ∉ anchorWords)
    (more : List (Place × Ident)) :
    nestedRuntime (tree ⟨none, first, more⟩) = ((tree ⟨none, first, more⟩).tokens, true) := by
  simp only [anchorWords, List.mem_cons, List.not_mem_nil, or_false, not_or] at free
  rw [nestedRuntime_relative, if_neg free.1, if_neg free.2.1, if_neg free.2.2]

/-- **The runtime path of the method modules names the module that the runtime path names at the
trait**, and needs no import, if it starts at a crate, at `crate`, or at `self` or `super`,
however often `super` stands there and whatever follows.  Any other path stays as it is, and what
is around the method modules is imported into them. -/
theorem nestedRuntime_names (modules : ModuleTree) (here : ModuleName) (hidden method : String)
    (p : ModulePath) :
    (p.IsAnchored →
      modules.named? ((here.child hidden).child method) (nestedRuntime p.tree).1
          = modules.named? here p.tree.tokens ∧
        (nestedRuntime p.tree).2 = false) ∧
    (¬p.IsAnchored → nestedRuntime p.tree = (p.tree.tokens, true)) := by
  rw [named?_tree]
  match p with
  | ⟨some place, first, more⟩ =>
      rw [nestedRuntime_rooted rfl, named?_tree]
      exact ⟨fun _ => ⟨modules.follow?_rooted _ _ _, rfl⟩, fun free => absurd (.inl rfl) free⟩
  | ⟨none, first, more⟩ =>
      refine ⟨fun anchored => ?_, fun free => nestedRuntime_free (fun anchor => free (.inr anchor)) more⟩
      obtain rooted | anchor := anchored
      · cases rooted
      · exact nestedRuntime_anchored modules here hidden method anchor more

/-- In the module `a::b` the path `self::super::rt` names `a::rt`, and so does the path that the
method modules get; `rt` alone may be an import, so they import what is around them. -/
theorem nestedRuntime_names_super :
    let modules : ModuleTree := ⟨fun m => m = ⟨"app", ["rt", "a"]⟩, fun _ _ => none⟩
    let here : ModuleName := ⟨"app", ["b", "a"]⟩
    let path : ModulePath :=
      ⟨none, ⟨"self", .nowhere⟩, [(.nowhere, ⟨"super", .nowhere⟩), (.nowhere, ⟨"rt", .nowhere⟩)]⟩
    let name : ModulePath := ⟨none, ⟨"rt", .nowhere⟩, []⟩
    path.IsAnchored ∧ ¬name.IsAnchored ∧
      modules.named? ((here.child "__app").child "started") (nestedRuntime path.tree).1
        = some ⟨"app", ["rt", "a"]⟩ ∧
      (nestedRuntime path.tree).2 = false ∧
      nestedRuntime name.tree = (name.tree.tokens, true) := by
  intro modules here path name
  have anchored : path.IsAnchored := .inr (by decide)
  have free : ¬name.IsAnchored := not_or.mpr (by decide)
  have before : modules.named? here path.tree.tokens = some ⟨"app", ["rt", "a"]⟩ := by
    rw [named?_tree]
    decide
  obtain ⟨same, silent⟩ :=
    (nestedRuntime_names modules here "__app" "started" path).1 anchored
  exact ⟨anchored, free, same.trans before, silent,
    (nestedRuntime_names modules here "__app" "started" name).2 free⟩

end ModulePath

end LogInterface
