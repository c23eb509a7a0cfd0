/-
# Proofs.Source.Occurrence -- what stands inside a tree

`Tree.parts` lists the trees right below a tree, and `Occurs` goes down any number
of steps.  What a tree mentions is what the trees in it mention by themselves
(`own`), except that an `impl` type marks what stands inside it
(`mem_mentions_iff`).  So the two questions that a rule asks of a type have an
answer that does not depend on the order of reading:

* `implMention?_eq_none_iff`: no `impl` type occurs in it;
* `plain_iff`: neither does a path that starts with `Self`.

Trees are nested in lists, options and records, so proofs go by
`Tree.induction_parts` and not by the constructors of every one of these types.
-/
import LogInterface.Source.Mention

namespace LogInterface

set_option autoImplicit false

/-! ## Parts -/

/-- The trees right below an input. -/
def Input.parts : Input → List Tree
  | .receiver r => r.attributes.map .attribute ++ r.type.toList
  | .typed attributes (.name _) type => attributes.map .attribute ++ [type]
  | .typed attributes (.other pattern) type => attributes.map .attribute ++ [pattern, type]

/-- The trees right below an item of a trait. -/
def TraitItem.parts : TraitItem → List Tree
  | .method m => m.attributes.map .attribute ++ .signature m.signature :: m.body.toList
  | .other t => [t]

/-- The trees right below a tree.  The tokens of attributes and macro calls are
no trees. -/
def Tree.parts : Tree → List Tree
  | .token _ => []
  | .group _ _ _ content => content
  | .node _ children => children
  | .attribute a =>
      match a.input with
      | .value e => [e]
      | _ => []
  | .generics g => g.params.map GenericParam.tree
  | .signature s =>
      .generics s.generics :: (s.clause.toList ++ s.inputs.flatMap Input.parts
        ++ s.variadic.toList ++ s.output.toList)
  | .trait t =>
      t.attributes.map .attribute ++ t.visibility :: .generics t.generics ::
        (t.clause.toList ++ t.supertraits ++ t.items.flatMap TraitItem.parts)

/-- The tree `u` is `t` or stands somewhere below it. -/
inductive Tree.Occurs (u : Tree) : Tree → Prop where
  | here : Occurs u u
  | inPart {p t : Tree} : p ∈ t.parts → Occurs u p → Occurs u t

/-- The first name of the path that an input stands for: a receiver without a type
stands for `Self`. -/
def Input.heads : Input → List Ident
  | .receiver r =>
      match r.type with
      | none => [⟨"Self", r.place⟩]
      | some _ => []
  | .typed _ _ _ => []

/-- The first names of the paths that a tree itself is. -/
def Tree.heads : Tree → List Ident
  | .node .path children => (firstName? children).toList
  | .attribute a => a.path.head?.toList
  | .signature s => s.inputs.flatMap Input.heads
  | _ => []

/-- Where an `impl` type starts, if the tree itself is one. -/
def Tree.implPlace? : Tree → Option Place
  | .node .implType children =>
      some (((treesTokens children).head?.map Token.place).getD .nowhere)
  | _ => none

/-- The trait that a tree itself declares. -/
def Tree.declares : Tree → List TraitDecl
  | .trait t => [t]
  | _ => []

/-- What a tree mentions apart from its parts. -/
def Tree.own (t : Tree) : List Mention :=
  t.heads.map .path ++ t.implPlace?.toList.map .implType ++ t.declares.map .declaration

/-- What a tree makes of a mention in one of its parts. -/
def Tree.mark (t : Tree) (m : Mention) : Mention := if t.is .implType then .inside m else m

/-! ## Parts are smaller -/

theorem sizeOf_le_of_attributes {as : List Attribute} {u : Tree}
    (part : u ∈ as.map Tree.attribute) : sizeOf u ≤ sizeOf as := by
  obtain ⟨a, member, rfl⟩ := List.mem_map.mp part
  have := List.sizeOf_lt_of_mem member
  rw [Tree.attribute.sizeOf_spec]
  omega

theorem sizeOf_lt_of_option {t : Option Tree} {u : Tree} (part : u ∈ t.toList) :
    sizeOf u < sizeOf t := by
  cases t with
  | none => cases part
  | some t =>
      cases List.mem_singleton.mp part
      rw [Option.some.sizeOf_spec]
      omega

theorem Input.sizeOf_parts {i : Input} {u : Tree} (part : u ∈ i.parts) : sizeOf u < sizeOf i := by
  match i with
  | .receiver ⟨attributes, reference, lifetime, mutability, place, type⟩ =>
      rw [Input.receiver.sizeOf_spec, Receiver.mk.sizeOf_spec]
      rcases List.mem_append.mp part with inAttributes | inType
      · have : sizeOf u ≤ sizeOf attributes := sizeOf_le_of_attributes inAttributes
        omega
      · have : sizeOf u < sizeOf type := sizeOf_lt_of_option inType
        omega
  | .typed attributes (.name _) type =>
      rw [Input.typed.sizeOf_spec]
      rcases List.mem_append.mp part with inAttributes | inRest
      · have := sizeOf_le_of_attributes inAttributes
        omega
      · have := List.sizeOf_lt_of_mem inRest
        cases List.mem_singleton.mp inRest
        omega
  | .typed attributes (.other pattern) type =>
      rw [Input.typed.sizeOf_spec, Pattern.other.sizeOf_spec]
      rcases List.mem_append.mp part with inAttributes | inRest
      · have := sizeOf_le_of_attributes inAttributes
        omega
      · rcases List.mem_cons.mp inRest with rfl | isType
        · omega
        · cases List.mem_singleton.mp isType
          omega

theorem TraitItem.sizeOf_parts {i : TraitItem} {u : Tree} (part : u ∈ i.parts) :
    sizeOf u < sizeOf i := by
  match i with
  | .method ⟨attributes, signature, body⟩ =>
      rw [TraitItem.method.sizeOf_spec, Method.mk.sizeOf_spec]
      rcases List.mem_append.mp part with inAttributes | inRest
      · have : sizeOf u ≤ sizeOf attributes := sizeOf_le_of_attributes inAttributes
        omega
      · rcases List.mem_cons.mp inRest with isSignature | inBody
        · rw [isSignature, Tree.signature.sizeOf_spec]
          show 1 + sizeOf signature < _
          omega
        · have : sizeOf u < sizeOf body := sizeOf_lt_of_option inBody
          omega
  | .other t =>
      cases List.mem_singleton.mp part
      rw [TraitItem.other.sizeOf_spec]
      omega

theorem Signature.sizeOf_parts {s : Signature} {u : Tree} (part : u ∈ (Tree.signature s).parts) :
    sizeOf u < sizeOf (Tree.signature s) := by
  obtain ⟨constness, asyncness, unsafety, abi, keyword, name, generics, inputs, trailing, variadic,
    output, clause⟩ := s
  rw [Tree.signature.sizeOf_spec, Signature.mk.sizeOf_spec]
  simp only [Tree.parts, List.mem_cons, List.mem_append] at part
  rcases part with rfl | ((inClause | inInputs) | inVariadic) | inOutput
  · rw [Tree.generics.sizeOf_spec]
    omega
  · have := sizeOf_lt_of_option inClause
    omega
  · obtain ⟨i, member, inInput⟩ := List.mem_flatMap.mp inInputs
    have := List.sizeOf_lt_of_mem member
    have := Input.sizeOf_parts inInput
    omega
  · have := sizeOf_lt_of_option inVariadic
    omega
  · have := sizeOf_lt_of_option inOutput
    omega

theorem TraitDecl.sizeOf_parts {t : TraitDecl} {u : Tree} (part : u ∈ (Tree.trait t).parts) :
    sizeOf u < sizeOf (Tree.trait t) := by
  obtain ⟨attributes, visibility, unsafety, auto, keyword, name, generics, supertraits,
    trailingPlus, clause, items⟩ := t
  rw [Tree.trait.sizeOf_spec, TraitDecl.mk.sizeOf_spec]
  simp only [Tree.parts, List.mem_cons, List.mem_append] at part
  rcases part with inAttributes | rfl | rfl | (inClause | inSupertraits) | inItems
  · have := sizeOf_le_of_attributes inAttributes
    omega
  · omega
  · rw [Tree.generics.sizeOf_spec]
    omega
  · have := sizeOf_lt_of_option inClause
    omega
  · have := List.sizeOf_lt_of_mem inSupertraits
    omega
  · obtain ⟨i, member, inItem⟩ := List.mem_flatMap.mp inItems
    have := List.sizeOf_lt_of_mem member
    have := TraitItem.sizeOf_parts inItem
    omega

theorem Tree.sizeOf_parts {t u : Tree} (part : u ∈ t.parts) : sizeOf u < sizeOf t := by
  match t with
  | .token _ => cases part
  | .group delimiter opens closes content =>
      have := List.sizeOf_lt_of_mem (show u ∈ content from part)
      rw [Tree.group.sizeOf_spec]
      omega
  | .node kind children =>
      have := List.sizeOf_lt_of_mem (show u ∈ children from part)
      rw [Tree.node.sizeOf_spec]
      omega
  | .attribute ⟨inner, place, rooted, path, .value e⟩ =>
      cases List.mem_singleton.mp part
      rw [Tree.attribute.sizeOf_spec, Attribute.mk.sizeOf_spec, AttributeInput.value.sizeOf_spec]
      omega
  | .attribute ⟨inner, place, rooted, path, .nothing⟩ => cases part
  | .attribute ⟨inner, place, rooted, path, .list _ _ _ _⟩ => cases part
  | .generics ⟨params, trailing⟩ =>
      obtain ⟨⟨kind, tree⟩, inParams, rfl⟩ := List.mem_map.mp part
      have := List.sizeOf_lt_of_mem (show _ ∈ params from inParams)
      rw [GenericParam.mk.sizeOf_spec] at this
      rw [Tree.generics.sizeOf_spec, Generics.mk.sizeOf_spec]
      show sizeOf tree < _
      omega
  | .signature s => exact Signature.sizeOf_parts part
  | .trait t => exact TraitDecl.sizeOf_parts part

/-- What passes from the parts of every tree to the tree holds of all trees. -/
theorem Tree.induction_parts {holds : Tree → Prop}
    (step : ∀ t : Tree, (∀ u ∈ t.parts, holds u) → holds t) (t : Tree) : holds t :=
  step t fun u part =>
    have : sizeOf u < sizeOf t := Tree.sizeOf_parts part
    Tree.induction_parts step u
termination_by sizeOf t

/-! ## Mentions of lists -/

theorem attributesMentions_eq (as : List Attribute) :
    attributesMentions as = as.flatMap Attribute.mentions := by
  induction as with
  | nil => rfl
  | cons a as ih => rw [attributesMentions, ih, List.flatMap_cons]

theorem treesMentions_eq (ts : List Tree) : treesMentions ts = ts.map Tree.mentions := by
  induction ts with
  | nil => rfl
  | cons t ts ih => rw [treesMentions, ih, List.map_cons]

theorem optionMentions_eq (t : Option Tree) :
    optionMentions t = t.toList.flatMap Tree.mentions := by
  cases t with
  | none => rfl
  | some t => simp [optionMentions]

theorem paramsMentions_eq (ps : List GenericParam) :
    paramsMentions ps = (ps.map GenericParam.tree).flatMap Tree.mentions := by
  induction ps with
  | nil => rfl
  | cons p ps ih =>
      obtain ⟨kind, tree⟩ := p
      rw [paramsMentions, ih, List.map_cons, List.flatMap_cons]

theorem inputsMentions_eq (is : List Input) :
    inputsMentions is = is.flatMap Input.mentions := by
  induction is with
  | nil => rfl
  | cons i is ih => rw [inputsMentions, ih, List.flatMap_cons]

theorem itemsMentions_eq (is : List TraitItem) :
    itemsMentions is = is.flatMap TraitItem.mentions := by
  induction is with
  | nil => rfl
  | cons i is ih => rw [itemsMentions, ih, List.flatMap_cons]

theorem mem_attributesMentions {as : List Attribute} {m : Mention} :
    m ∈ attributesMentions as ↔ ∃ u ∈ as.map Tree.attribute, m ∈ u.mentions := by
  rw [attributesMentions_eq, ← List.mem_flatMap, List.flatMap_map]
  rfl

theorem mem_optionMentions {t : Option Tree} {m : Mention} :
    m ∈ optionMentions t ↔ ∃ u ∈ t.toList, m ∈ u.mentions := by
  rw [optionMentions_eq, List.mem_flatMap]

theorem exists_mem_append {α : Type} {p : α → Prop} {xs ys : List α} :
    (∃ u ∈ xs ++ ys, p u) ↔ (∃ u ∈ xs, p u) ∨ ∃ u ∈ ys, p u := by
  simp only [List.mem_append, or_and_right, exists_or]

theorem exists_mem_flatMap {α β : Type} {p : β → Prop} {f : α → List β} {xs : List α} :
    (∃ u ∈ xs.flatMap f, p u) ↔ ∃ x ∈ xs, ∃ u ∈ f x, p u := by
  constructor
  · rintro ⟨u, member, holds⟩
    obtain ⟨x, inList, inPart⟩ := List.mem_flatMap.mp member
    exact ⟨x, inList, u, inPart, holds⟩
  · rintro ⟨x, inList, u, inPart, holds⟩
    exact ⟨u, List.mem_flatMap.mpr ⟨x, inList, inPart⟩, holds⟩

/-- Taking the clause along with the generic parameters loses nothing. -/
theorem mem_inOrder {trees : List (Tree × List Mention)} {m : Mention} :
    m ∈ inOrder trees ↔ ∃ pair ∈ trees, m ∈ pair.2 := by
  fun_induction inOrder trees with
  | case1 => simp
  | case2 g first rest clauses others split =>
      have clausesEq : clauses = rest.filter (·.1.is .whereClause) := by
        rw [List.partition_eq_filter_filter] at split
        exact (congrArg Prod.fst split).symm
      have othersEq : others = rest.filter (!·.1.is .whereClause) := by
        rw [List.partition_eq_filter_filter] at split
        exact (congrArg Prod.snd split).symm
      subst clausesEq othersEq
      simp only [List.mem_append, List.mem_flatMap, List.mem_filter, List.mem_cons]
      constructor
      · rintro ((member | ⟨pair, ⟨inRest, -⟩, member⟩) | ⟨pair, ⟨inRest, -⟩, member⟩)
        · exact ⟨_, .inl rfl, member⟩
        · exact ⟨pair, .inr inRest, member⟩
        · exact ⟨pair, .inr inRest, member⟩
      · rintro ⟨pair, rfl | inRest, member⟩
        · exact .inl (.inl member)
        · cases clause : pair.1.is .whereClause with
          | true => exact .inl (.inr ⟨pair, ⟨inRest, clause⟩, member⟩)
          | false => exact .inr ⟨pair, ⟨inRest, by rw [clause]; rfl⟩, member⟩
  | case3 t first rest notGenerics ih =>
      rw [List.mem_append, ih]
      constructor
      · rintro (member | ⟨pair, inRest, member⟩)
        · exact ⟨_, List.mem_cons_self, member⟩
        · exact ⟨pair, List.mem_cons_of_mem _ inRest, member⟩
      · rintro ⟨pair, inTrees, member⟩
        rcases List.mem_cons.mp inTrees with rfl | inRest
        · exact .inl member
        · exact .inr ⟨pair, inRest, member⟩

theorem mem_inOrder_children {children : List Tree} {m : Mention} :
    m ∈ inOrder (children.zip (treesMentions children))
      ↔ ∃ u ∈ children, m ∈ u.mentions := by
  have zipped : children.zip (treesMentions children) = children.map fun u => (u, u.mentions) := by
    have paired := List.zip_map' (f := id) (g := Tree.mentions) (l := children)
    rw [List.map_id] at paired
    rw [treesMentions_eq, paired]
    rfl
  rw [mem_inOrder, zipped]
  simp only [List.mem_map]
  constructor
  · rintro ⟨_, ⟨u, inChildren, rfl⟩, member⟩
    exact ⟨u, inChildren, member⟩
  · rintro ⟨u, inChildren, member⟩
    exact ⟨_, ⟨u, inChildren, rfl⟩, member⟩

/-! ## Mentions of parts -/

theorem mark_of_ne {t : Tree} (other : t.is .implType = false) (m : Mention) : t.mark m = m := by
  rw [Tree.mark, other]
  rfl

theorem exists_marked {t : Tree} (other : t.is .implType = false) {us : List Tree} {m : Mention} :
    (∃ u ∈ us, ∃ n ∈ u.mentions, m = t.mark n) ↔ ∃ u ∈ us, m ∈ u.mentions := by
  simp only [mark_of_ne other, exists_eq_right']

theorem nodeMentions_of_ne {kind : Kind} {children : List Tree} {each : List (List Mention)}
    (notPath : kind ≠ .path) (notImpl : kind ≠ .implType) :
    nodeMentions kind children each = inOrder (children.zip each) := by
  unfold nodeMentions
  split
  · exact absurd rfl notPath
  · exact absurd rfl notImpl
  · rfl

theorem heads_of_ne {kind : Kind} {children : List Tree} (notPath : kind ≠ .path) :
    (Tree.node kind children).heads = [] := by
  unfold Tree.heads
  split
  · rename_i same
    cases same
    exact absurd rfl notPath
  · rename_i same
    cases same
  · rename_i same
    cases same
  · rfl

theorem implPlace?_of_ne {kind : Kind} {children : List Tree} (notImpl : kind ≠ .implType) :
    (Tree.node kind children).implPlace? = none := by
  unfold Tree.implPlace?
  split
  · rename_i same
    cases same
    exact absurd rfl notImpl
  · rfl

theorem mem_nodeMentions {kind : Kind} {children : List Tree} {m : Mention} :
    m ∈ (Tree.node kind children).mentions ↔
      m ∈ (Tree.node kind children).own ∨
        ∃ u ∈ children, ∃ n ∈ u.mentions, m = (Tree.node kind children).mark n := by
  -- Only an `impl` type marks what it holds, and only a path adds a name of its own.
  by_cases notImpl : kind = .implType
  · subst notImpl
    have marked (n : Mention) : (Tree.node .implType children).mark n = .inside n := rfl
    have own : (Tree.node .implType children).own
        = [.implType (((treesTokens children).head?.map Token.place).getD .nowhere)] := rfl
    rw [Tree.mentions, own, List.mem_singleton]
    simp only [nodeMentions, List.mem_cons, List.mem_map, mem_inOrder_children, marked]
    constructor
    · rintro (first | ⟨n, ⟨u, inChildren, member⟩, rfl⟩)
      · exact .inl first
      · exact .inr ⟨u, inChildren, n, member, rfl⟩
    · rintro (first | ⟨u, inChildren, n, member, rfl⟩)
      · exact .inl first
      · exact .inr ⟨n, ⟨u, inChildren, member⟩, rfl⟩
  · have other : (Tree.node kind children).is .implType = false := by
      rw [Tree.is, decide_eq_false notImpl]
    have own : (Tree.node kind children).own = (Tree.node kind children).heads.map .path := by
      rw [Tree.own, implPlace?_of_ne notImpl]
      exact (List.append_nil _).trans (List.append_nil _)
    rw [Tree.mentions, exists_marked other, ← mem_inOrder_children, own]
    by_cases isPath : kind = .path
    · subst isPath
      rw [nodeMentions, List.mem_append]
      cases first : firstName? children with
      | none => simp [Tree.heads, first]
      | some i => simp [Tree.heads, first]
    · rw [nodeMentions_of_ne isPath notImpl, heads_of_ne isPath]
      simp

theorem mem_inputMentions {i : Input} {m : Mention} :
    m ∈ i.mentions ↔ m ∈ i.heads.map .path ∨ ∃ u ∈ i.parts, m ∈ u.mentions := by
  match i with
  | .receiver ⟨attributes, reference, lifetime, mutability, place, none⟩ =>
      simp only [Input.mentions, Input.heads, Input.parts, List.mem_append,
        mem_attributesMentions, or_and_right, exists_or, Option.toList_none]
      simp [or_comm]
  | .receiver ⟨attributes, reference, lifetime, mutability, place, some type⟩ =>
      simp only [Input.mentions, Input.heads, Input.parts, List.mem_append,
        mem_attributesMentions, or_and_right, exists_or, Option.toList_some]
      simp
  | .typed attributes (.name i) type =>
      simp only [Input.mentions, Input.heads, Input.parts, Pattern.mentions, List.mem_append,
        mem_attributesMentions, or_and_right, exists_or]
      simp
  | .typed attributes (.other pattern) type =>
      simp only [Input.mentions, Input.heads, Input.parts, Pattern.mentions, List.mem_append,
        mem_attributesMentions, or_and_right, exists_or]
      simp [or_assoc]

theorem mem_signatureMentions {s : Signature} {m : Mention} :
    m ∈ s.mentions ↔
      m ∈ (Tree.signature s).own ∨ ∃ u ∈ (Tree.signature s).parts, m ∈ u.mentions := by
  have own : (Tree.signature s).own = (s.inputs.flatMap Input.heads).map .path := by
    rw [Tree.own]
    exact (List.append_nil _).trans (List.append_nil _)
  have inputs : m ∈ inputsMentions s.inputs
      ↔ m ∈ (Tree.signature s).own ∨ ∃ u ∈ s.inputs.flatMap Input.parts, m ∈ u.mentions := by
    rw [inputsMentions_eq, List.mem_flatMap, own, exists_mem_flatMap, List.map_flatMap,
      List.mem_flatMap]
    simp only [mem_inputMentions, and_or_left, exists_or]
  have generics : m ∈ s.generics.mentions ↔ m ∈ (Tree.generics s.generics).mentions := Iff.rfl
  have listed : m ∈ s.mentions ↔ m ∈ s.generics.mentions ∨ m ∈ optionMentions s.clause
      ∨ m ∈ inputsMentions s.inputs ∨ m ∈ optionMentions s.variadic
      ∨ m ∈ optionMentions s.output := by
    obtain ⟨⟩ := s
    simp only [Signature.mentions, List.mem_append, or_assoc]
  rw [listed, inputs, generics, mem_optionMentions, mem_optionMentions, mem_optionMentions]
  simp only [Tree.parts, List.mem_cons, or_and_right, exists_or, exists_eq_left,
    exists_mem_append]
  rw [or_left_comm (a := m ∈ (Tree.signature s).own)]
  simp only [or_assoc, or_left_comm]

theorem mem_itemMentions {i : TraitItem} {m : Mention} :
    m ∈ i.mentions ↔ ∃ u ∈ i.parts, m ∈ u.mentions := by
  match i with
  | .method ⟨attributes, signature, body⟩ =>
      simp only [TraitItem.mentions, Method.mentions, TraitItem.parts, List.mem_append,
        mem_attributesMentions, mem_optionMentions, List.mem_cons,
        or_and_right, exists_or, exists_eq_left, or_assoc, Tree.mentions]
  | .other t =>
      simp only [TraitItem.mentions, TraitItem.parts, List.mem_singleton, exists_eq_left]

theorem mem_traitMentions {t : TraitDecl} {m : Mention} :
    m ∈ t.mentions ↔ ∃ u ∈ (Tree.trait t).parts, m ∈ u.mentions := by
  have listed : m ∈ t.mentions ↔ m ∈ attributesMentions t.attributes ∨ m ∈ t.visibility.mentions
      ∨ m ∈ (Tree.generics t.generics).mentions ∨ m ∈ optionMentions t.clause
      ∨ m ∈ (treesMentions t.supertraits).flatten ∨ m ∈ itemsMentions t.items := by
    obtain ⟨⟩ := t
    simp only [TraitDecl.mentions, Tree.mentions, List.mem_append, or_assoc]
  have supertraits : m ∈ (treesMentions t.supertraits).flatten
      ↔ ∃ u ∈ t.supertraits, m ∈ u.mentions := by
    rw [treesMentions_eq, ← List.flatMap_def, List.mem_flatMap]
  have items : m ∈ itemsMentions t.items
      ↔ ∃ u ∈ t.items.flatMap TraitItem.parts, m ∈ u.mentions := by
    rw [itemsMentions_eq, List.mem_flatMap, exists_mem_flatMap]
    simp only [mem_itemMentions]
  rw [listed, supertraits, items, mem_attributesMentions, mem_optionMentions]
  simp only [Tree.parts, List.mem_cons, or_and_right, exists_or, exists_eq_left,
    exists_mem_append, or_assoc]

/-- A tree mentions what it mentions by itself and what its parts mention. -/
theorem mem_mentions_iff {t : Tree} {m : Mention} :
    m ∈ t.mentions ↔ m ∈ t.own ∨ ∃ u ∈ t.parts, ∃ n ∈ u.mentions, m = t.mark n := by
  match t with
  | .token t =>
      have own : (Tree.token t).own = [] := rfl
      simp [Tree.mentions, Tree.parts, own]
  | .group delimiter opens closes content =>
      have own : (Tree.group delimiter opens closes content).own = [] := rfl
      rw [exists_marked rfl, Tree.mentions, treesMentions_eq, ← List.flatMap_def, List.mem_flatMap]
      simp [Tree.parts, own]
  | .node kind children => exact mem_nodeMentions
  | .attribute ⟨inner, place, rooted, path, input⟩ =>
      rw [exists_marked rfl]
      cases input <;> simp [Tree.mentions, Attribute.mentions, AttributeInput.mentions, Tree.own,
        Tree.heads, Tree.implPlace?, Tree.declares, Tree.parts]
  | .generics ⟨params, trailing⟩ =>
      have own : (Tree.generics ⟨params, trailing⟩).own = [] := rfl
      rw [exists_marked rfl, Tree.mentions, Generics.mentions, paramsMentions_eq,
        List.mem_flatMap]
      simp [Tree.parts, own]
  | .signature s =>
      rw [exists_marked rfl]
      exact mem_signatureMentions
  | .trait t =>
      have own : (Tree.trait t).own = [.declaration t] := rfl
      rw [exists_marked rfl, Tree.mentions, List.mem_cons, mem_traitMentions, own,
        List.mem_singleton]

/-! ## What a rule asks of a type -/

theorem implType_mem_own {t : Tree} {p : Place} :
    .implType p ∈ t.own ↔ t.implPlace? = some p := by
  simp [Tree.own]

theorem path_mem_own {t : Tree} {i : Ident} : .path i ∈ t.own ↔ i ∈ t.heads := by
  simp [Tree.own]

theorem implPlace?_isSome (t : Tree) : t.implPlace?.isSome = t.is .implType := by
  by_cases isImpl : t.is .implType
  · match t, isImpl with
    | .node kind children, isImpl =>
        cases of_decide_eq_true isImpl
        rfl
  · rw [Bool.not_eq_true] at isImpl
    rw [isImpl]
    match t, isImpl with
    | .node kind children, isImpl => rw [implPlace?_of_ne (of_decide_eq_false isImpl)]; rfl
    | .token _, _ | .group _ _ _ _, _ | .attribute _, _ | .generics _, _ | .signature _, _
    | .trait _, _ => rfl

/-- Is no `impl` type in the tree? -/
def Tree.Concrete (t : Tree) : Prop := ∀ u : Tree, u.Occurs t → ¬u.is .implType

theorem Tree.Concrete.mark {t : Tree} (concrete : t.Concrete) (m : Mention) : t.mark m = m :=
  mark_of_ne (Bool.not_eq_true _ ▸ concrete t .here) m

theorem Tree.Concrete.part {t u : Tree} (concrete : t.Concrete) (part : u ∈ t.parts) :
    u.Concrete :=
  fun v occurs => concrete v (.inPart part occurs)

/-- A tree without `impl` types mentions what the trees in it mention by themselves. -/
theorem Tree.Concrete.mem_mentions {t : Tree} (concrete : t.Concrete) {m : Mention} :
    m ∈ t.mentions ↔ ∃ u : Tree, u.Occurs t ∧ m ∈ u.own := by
  induction t using Tree.induction_parts with
  | step t ih =>
      rw [mem_mentions_iff]
      simp only [concrete.mark, exists_eq_right']
      constructor
      · rintro (member | ⟨u, part, member⟩)
        · exact ⟨t, .here, member⟩
        · obtain ⟨v, occurs, byItself⟩ := (ih u part (concrete.part part)).mp member
          exact ⟨v, .inPart part occurs, byItself⟩
      · rintro ⟨v, occurs, byItself⟩
        cases occurs with
        | here => exact .inl byItself
        | inPart part occurs =>
            exact .inr ⟨_, part, (ih _ part (concrete.part part)).mpr ⟨v, occurs, byItself⟩⟩

theorem implMention?_eq_none {t : Tree} :
    t.implMention? = none ↔ ∀ p, .implType p ∉ t.mentions := by
  rw [Tree.implMention?, List.findSome?_eq_none_iff]
  constructor
  · intro silent p member
    exact absurd (silent _ member) (by simp)
  · intro silent m member
    cases m with
    | implType p => exact absurd member (silent p)
    | _ => rfl

/-- No `impl` type is found in a tree exactly if none occurs in it. -/
theorem implMention?_eq_none_iff {t : Tree} : t.implMention? = none ↔ t.Concrete := by
  rw [implMention?_eq_none]
  constructor
  · intro silent
    induction t using Tree.induction_parts with
    | step t ih =>
        have isOther : t.is .implType = false := by
          rw [← implPlace?_isSome, Option.isSome_eq_false_iff, Option.isNone_iff_eq_none,
            Option.eq_none_iff_forall_ne_some]
          intro p place
          exact silent p (mem_mentions_iff.mpr (.inl (implType_mem_own.mpr place)))
        intro u occurs
        cases occurs with
        | here => exact Bool.not_eq_true _ ▸ isOther
        | inPart part occurs =>
            refine ih _ part (fun p member => silent p ?_) u occurs
            exact mem_mentions_iff.mpr (.inr ⟨_, part, _, member, (mark_of_ne isOther _).symm⟩)
  · intro concrete p member
    obtain ⟨u, occurs, byItself⟩ := concrete.mem_mentions.mp member
    refine concrete u occurs ?_
    rw [← implPlace?_isSome, implType_mem_own.mp byItself]
    rfl

theorem selfMention?_eq_none {t : Tree} :
    t.selfMention? = none ↔ ∀ i : Ident, .path i ∈ t.mentions → i.text ≠ "Self" := by
  rw [Tree.selfMention?, List.findSome?_eq_none_iff]
  constructor
  · intro silent i member named
    have found := silent _ member
    simp [named] at found
  · intro silent m member
    cases m with
    | path i => simpa using silent i member
    | _ => rfl

/-- A type without `impl` types and without a path that starts with `Self`. -/
structure Tree.IsPlain (t : Tree) : Prop where
  concrete : t.Concrete
  selfless : ∀ u : Tree, u.Occurs t → ∀ i ∈ u.heads, i.text ≠ "Self"

theorem plain_iff {t : Tree} :
    t.IsPlain ↔ t.implMention? = none ∧ t.selfMention? = none := by
  rw [implMention?_eq_none_iff, selfMention?_eq_none]
  constructor
  · rintro ⟨concrete, selfless⟩
    refine ⟨concrete, fun i member => ?_⟩
    obtain ⟨u, occurs, byItself⟩ := concrete.mem_mentions.mp member
    exact selfless u occurs i (path_mem_own.mp byItself)
  · rintro ⟨concrete, silent⟩
    refine ⟨concrete, fun u occurs i isHead => silent i ?_⟩
    exact concrete.mem_mentions.mpr ⟨u, occurs, path_mem_own.mpr isHead⟩

end LogInterface
