/-
# Proofs.Companion.Shadowing -- what a relative runtime path reaches

A runtime path may start with any name that is known at the trait, be it a module beside it or an
import.  It is written as it stands into the modules of the methods, two levels below, and these
and the module around them import all that their parents see.  But what a module declares itself
comes before what it imports, and the hidden module declares a module for each method, under the
name of the method.

A `Binder` is what one item binds around the paths inside, read off the tree of the item, and
`sense` follows a name outwards through binders.  In the module of a method the path means what it
means at the trait exactly if its first name is the name of no method and of nothing that the
module itself binds (`relative_runtime_iff`).  No rule sees to that: a trait that logs through
`rt` is accepted with a method `rt` (`relative_runtime_shadowed`).
-/
import LogInterface.Proofs.Companion.Coverage
import LogInterface.Proofs.Companion.Items
import LogInterface.Proofs.Generation.Clashes

namespace LogInterface

open Token Build

set_option autoImplicit false

/-! ## Binders -/

/-- The names of types and modules that an item binds around the paths inside, and whether all
other names mean inside what they mean around it. -/
structure Binder where
  names : List String
  passes : Bool
  deriving DecidableEq, Repr

/-- What the first name of a path stands for. -/
inductive Sense where
  /-- Something that was generated. -/
  | generated
  /-- What it stands for at the trait. -/
  | atTrait
  | nothing
  deriving DecidableEq, Repr

/-- What a name stands for under binders, the innermost first, below the module of the trait. -/
def sense (name : String) : List Binder → Sense
  | [] => .atTrait
  | b :: bs => if name ∈ b.names then .generated else if b.passes then sense name bs else .nothing

theorem sense_eq_atTrait_iff {name : String} {bs : List Binder} :
    sense name bs = .atTrait ↔ ∀ b ∈ bs, name ∉ b.names ∧ b.passes = true := by
  induction bs with
  | nil => exact ⟨fun _ => List.forall_mem_nil _, fun _ => rfl⟩
  | cons b bs ih =>
      rw [sense, List.forall_mem_cons, ← ih]
      by_cases bound : name ∈ b.names
      · rw [if_pos bound]
        exact ⟨nofun, fun free => absurd bound free.1.1⟩
      · rw [if_neg bound]
        cases b.passes with
        | true => exact ⟨fun reached => ⟨⟨bound, rfl⟩, reached⟩, fun free => free.2⟩
        | false => exact ⟨nofun, fun free => nomatch free.1.2⟩

/-! ## Binders of items -/

def GenericParam.typeName? : GenericParam → Option String
  | ⟨.type, .node .typeParam (_ :: .token (.ident text place) :: _)⟩ =>
      some (Ident.name ⟨text, place⟩)
  | _ => none

def Tree.moduleItems : Tree → List Tree
  | .node .modItem (_ :: _ :: _ :: _ :: _ :: .group _ _ _ (_ :: items) :: _) => items
  | _ => []

/-- The name that an item gives to a type or a module.  The name of a constant can start no
path. -/
def Tree.typeName? : Tree → Option String
  | .node .constItem _ => none
  | t => t.declared?.map Ident.name

/-- Does the item import all that the parent module sees? -/
def Tree.importsParent : Tree → Bool
  | .node .useItem
      [_, _, _, _, .node .usePath [.token (.ident word _), _, _, .node .useGlob _], _] =>
      word == "super"
  | _ => false

/-- What an item of a hidden module binds. -/
def Tree.binder (t : Tree) : Binder :=
  match t with
  | .node .modItem _ =>
      ⟨t.moduleItems.filterMap Tree.typeName?, t.moduleItems.any Tree.importsParent⟩
  | .node .structItem (_ :: _ :: _ :: _ :: .generics g :: _)
  | .node .implItem (_ :: _ :: _ :: _ :: .generics g :: _) =>
      ⟨"Self" :: g.params.filterMap GenericParam.typeName?, true⟩
  | _ => ⟨[], true⟩

/-- A word is source by itself. -/
theorem code_of_isWord {text : String} (isWord : IsWord text.toList) : code text = [word text] := by
  have split {cs : List Char} (goesOn : ∀ c ∈ cs, Text.isIdentContinue c = true) :
      splitWords cs = [cs] := by
    induction cs with
    | nil => rfl
    | cons c cs ih =>
        obtain ⟨first, others⟩ := List.forall_mem_cons.mp goesOn
        have part : c ≠ ' ' := by
          rintro rfl
          exact absurd first (by decide)
        rw [splitWords, ih others]
        exact if_neg part
  rw [code, split isWord.goesOn, List.flatMap_singleton]
  cases spelled : text.toList with
  | nil => exact (not_isWord_nil (spelled ▸ isWord)).elim
  | cons c cs =>
      have starts : Text.isIdentStart c = true := by
        rw [spelled] at isWord
        exact (isWord_cons.mp isWord).1
      rw [ofWord, if_pos starts, ← spelled, String.ofList_toList]

/-- A type parameter gives its name. -/
theorem typeName?_typeParam {text : String} (isWord : IsWord text.toList) (bounds : Tree) :
    (typeParam (code text) bounds).typeName? = some text := by
  have named : Ident.name ⟨text, .nowhere⟩ = text := name_of_isWord isWord
  rw [code_of_isWord isWord]
  exact congrArg some named

namespace MethodModule

variable (m : MethodModule)

theorem typeNames_isWord : ∀ text ∈ m.typeNames, IsWord text.toList := by
  rw [typeNames, List.forall_mem_map]
  intro i _
  have start : IsWord "T".toList := by decide
  rw [String.toList_append]
  exact start.append (repr_goesOn i)

/-- The view and its implementations bind the types of the fields. -/
theorem typeParams_typeNames (bounds : Tree) :
    (m.typeParams bounds).params.filterMap GenericParam.typeName? = m.typeNames := by
  rw [typeParams, List.map_map, List.filterMap_map]
  have each : ∀ text ∈ m.typeNames,
      (GenericParam.typeName? ∘ (typeParam · bounds) ∘ code) text = some text :=
    fun text member => typeName?_typeParam (m.typeNames_isWord text member) bounds
  rw [List.filterMap_congr each, List.filterMap_some]

/-- The names of the types start with a large letter. -/
theorem head_typeNames : ∀ text ∈ m.typeNames, text.toList.head? = some 'T' := by
  rw [typeNames, List.forall_mem_map]
  intro i _
  rw [String.toList_append]
  rfl

theorem binder_structTree : m.structTree.binder = ⟨"Self" :: m.typeNames, true⟩ := by
  rw [← m.typeParams_typeNames .absent, structTree]
  split <;> rfl

theorem binder_implTree (runtime trait items : List Tree) :
    (m.implTree runtime trait items).binder = ⟨"Self" :: m.typeNames, true⟩ := by
  rw [← m.typeParams_typeNames (bounds [traitBound [] (inRuntime runtime ["ToFieldValue"])])]
  rfl

theorem typeName?_structTree : m.structTree.typeName? = some "Fields" := by
  rw [structTree]
  split <;> rfl

/-- The module of a method declares one type, and imports what is around it if that is needed. -/
theorem binder_item (runtime : List Tree) :
    (m.item runtime true).binder = ⟨["Fields"], true⟩ := by
  have names : (m.item runtime true).moduleItems.filterMap Tree.typeName? = ["Fields"] := by
    show (m.structTree :: _).filterMap Tree.typeName? = _
    rw [List.filterMap_cons_some m.typeName?_structTree]
    rfl
  have binder : (m.item runtime true).binder
      = ⟨(m.item runtime true).moduleItems.filterMap Tree.typeName?, true⟩ := rfl
  rw [binder, names]

/-- What the items in the module of a method bind: nothing, or the types of the fields. -/
theorem binder_moduleItems (runtime : List Tree) :
    (m.item runtime true).moduleItems.map Tree.binder =
      [⟨[], true⟩, ⟨[], true⟩, ⟨"Self" :: m.typeNames, true⟩, ⟨"Self" :: m.typeNames, true⟩,
        ⟨"Self" :: m.typeNames, true⟩] := by
  show [_, _, m.structTree.binder, (m.implTree runtime _ _).binder,
    (m.implTree runtime _ _).binder] = _
  rw [binder_structTree, binder_implTree, binder_implTree]
  rfl

end MethodModule

/-! ## The hidden module -/

namespace Companion

variable (c : Companion)

/-- The module of a method, as it stands in the hidden module. -/
def moduleTree (m : MethodModule) : Tree :=
  m.item (nestedSegments c.runtime) (nestedRuntime c.runtime).2

theorem moduleTree_mem {m : MethodModule} (member : m ∈ c.modules) :
    c.moduleTree m ∈ c.hiddenItem.moduleItems :=
  List.mem_append_right _ (List.mem_map_of_mem member)

/-- The hidden module declares a module for each method, under the name of the method. -/
theorem binder_hiddenItem (imports : (nestedRuntime c.runtime).2 = true) :
    c.hiddenItem.binder = ⟨c.modules.map (·.name.name), true⟩ := by
  have items : c.hiddenItem.moduleItems
      = parentImportItems true ++ c.modules.map c.moduleTree := by
    rw [← imports]
    rfl
  have each : Tree.typeName? ∘ c.moduleTree = fun m => some m.name.name := rfl
  have binder : c.hiddenItem.binder = ⟨c.hiddenItem.moduleItems.filterMap Tree.typeName?,
    c.hiddenItem.moduleItems.any Tree.importsParent⟩ := rfl
  rw [binder, items, List.filterMap_append, List.filterMap_map, each, List.any_append]
  exact congrArg (Binder.mk · true) (congrFun List.filterMap_eq_map' c.modules)

/-- In the module of the method, a path with this first name means what it means at the trait,
whichever item it stands in. -/
def ReachesTrait (first : Ident) (m : MethodModule) : Prop :=
  ∀ item ∈ (c.moduleTree m).moduleItems,
    sense first.name [item.binder, (c.moduleTree m).binder, c.hiddenItem.binder] = .atTrait

theorem reachesTrait_iff (imports : (nestedRuntime c.runtime).2 = true) {first : Ident}
    {m : MethodModule} :
    c.ReachesTrait first m ↔ first.name ∉ c.modules.map (·.name.name) ∧
      first.name ∉ "Fields" :: "Self" :: m.typeNames := by
  have inner : c.moduleTree m = m.item (nestedSegments c.runtime) true := by
    rw [moduleTree, imports]
  have items : c.ReachesTrait first m ↔
      ∀ b ∈ (m.item (nestedSegments c.runtime) true).moduleItems.map Tree.binder,
        sense first.name [b, ⟨["Fields"], true⟩, ⟨c.modules.map (·.name.name), true⟩]
          = .atTrait := by
    rw [ReachesTrait, inner, m.binder_item, c.binder_hiddenItem imports, List.forall_mem_map]
  rw [items, m.binder_moduleItems]
  constructor
  · intro reached
    -- The view binds the most.
    have view := sense_eq_atTrait_iff.mp (reached ⟨"Self" :: m.typeNames, true⟩ (by simp))
    simp only [List.forall_mem_cons] at view
    obtain ⟨⟨ofView, -⟩, ⟨ofModule, -⟩, ⟨ofHidden, -⟩, -⟩ := view
    refine ⟨ofHidden, fun member => ?_⟩
    rcases List.mem_cons.mp member with fields | member
    · exact ofModule (List.mem_singleton.mpr fields)
    · exact ofView member
  · rintro ⟨ofHidden, free⟩ b member
    rw [List.mem_cons, not_or] at free
    have ofView : first.name ∉ b.names ∧ b.passes = true := by
      simp only [List.mem_cons, List.not_mem_nil, or_false] at member
      obtain rfl | rfl | rfl | rfl | rfl := member
      · exact ⟨List.not_mem_nil, rfl⟩
      · exact ⟨List.not_mem_nil, rfl⟩
      · exact ⟨free.2, rfl⟩
      · exact ⟨free.2, rfl⟩
      · exact ⟨free.2, rfl⟩
    have ofModule : first.name ∉ ["Fields"] := mt List.mem_singleton.mp free.1
    rw [sense_eq_atTrait_iff, List.forall_mem_cons, List.forall_mem_cons, List.forall_mem_singleton]
    exact ⟨ofView, ⟨ofModule, rfl⟩, ofHidden, rfl⟩

end Companion

/-! ## Accepted traits -/

/-- A path that needs the imports starts with a name, and is written as it stands. -/
theorem nestedRuntime_cases (path : Tree) :
    (nestedRuntime path).2 = false ∨
      ∃ first, firstName? path.children = some first ∧ nestedRuntime path = (path.tokens, true) := by
  fun_cases nestedRuntime path with
  | case1 => exact .inl rfl
  | case2 => exact .inl rfl
  | case3 => exact .inl rfl
  | case4 rooted first isFirst => exact .inr ⟨first, isFirst, rfl⟩
  | case5 => exact .inl rfl

/-- The modules of an accepted trait have the names of its methods. -/
theorem moduleNames_of_expand {t : TraitDecl} {cx : Context} {e : Expansion}
    (accepted : expand t cx = .ok e) :
    e.companion.modules.map (·.name.name) = t.methods.map (·.signature.name.name) := by
  have named : List.Forall₂ (fun m (x : MethodModule) => m.signature.name.name = x.name.name)
      t.methods e.companion.modules := by
    rw [(methods_of_expand accepted).1]
    exact forall_of_expand accepted fun _ _ _ _ _ _ => rfl
  have same := List.forall₂_map_right_iff.mpr (List.forall₂_map_left_iff.mpr named)
  rw [List.forall₂_eq_eq_eq] at same
  exact same.symm

/-- **What a relative runtime path reaches.**  It is written into the modules of the methods as it
stands, and they and the hidden module import what is around them.  In the module of a method it
means what it means at the trait exactly if its first name is neither that of a method of the
trait nor one that the module binds itself: the view, `Self`, and the types of the fields. -/
theorem relative_runtime_iff {t : TraitDecl} {cx : Context} {e : Expansion}
    (accepted : expand t cx = .ok e) (imports : (nestedRuntime e.companion.runtime).2 = true) :
    ∃ first, firstName? e.companion.runtime.children = some first ∧
      (nestedRuntime e.companion.runtime).1 = e.companion.runtime.tokens ∧
      e.companion.hiddenItem.binder = ⟨t.methods.map (·.signature.name.name), true⟩ ∧
      ∀ m ∈ e.companion.modules,
        e.companion.moduleTree m ∈ e.companion.hiddenItem.moduleItems ∧
        (e.companion.moduleTree m).binder = ⟨["Fields"], true⟩ ∧
        (e.companion.ReachesTrait first m ↔
          first.name ∉ t.methods.map (·.signature.name.name) ∧
            first.name ∉ "Fields" :: "Self" :: m.typeNames) := by
  obtain silent | ⟨first, isFirst, same⟩ := nestedRuntime_cases e.companion.runtime
  · rw [imports] at silent
    cases silent
  rw [← moduleNames_of_expand accepted]
  refine ⟨first, isFirst, congrArg Prod.fst same, e.companion.binder_hiddenItem imports,
    fun m member => ?_⟩
  refine ⟨e.companion.moduleTree_mem member, ?_, e.companion.reachesTrait_iff imports⟩
  rw [Companion.moduleTree, imports]
  exact m.binder_item _

namespace Sample

/-- An annotation that names a runtime crate. -/
def through (runtime : String) : Context :=
  { context with arguments := [.word "crate"] ++ Token.operator "=" ++ [.word runtime] }

def named (name : String) : TraitDecl :=
  { interface with items := [.method (method name (message "1" "x") [])] }

/-- Is the runtime path of the companion this name, and are the imports needed? -/
def relative (runtime : String) (e : Expansion) : Bool :=
  (nestedRuntime e.companion.runtime).2 &&
    (firstName? e.companion.runtime.children).map Ident.name == some runtime

theorem through_relative {t : TraitDecl} {runtime : String}
    (checked : ((expand t (through runtime)).toOption.map (relative runtime)) = some true) :
    ∃ e, expand t (through runtime) = .ok e ∧ (nestedRuntime e.companion.runtime).2 = true ∧
      ∃ first, firstName? e.companion.runtime.children = some first ∧ first.name = runtime := by
  obtain ⟨e, accepted, isRelative⟩ := Option.map_eq_some_iff.mp checked
  rw [relative, Bool.and_eq_true, beq_iff_eq, Option.map_eq_some_iff] at isRelative
  exact ⟨e, ok_of_toOption accepted, isRelative⟩

end Sample

/-- Two methods, and a runtime that has the name of neither. -/
theorem relative_runtime_iff_sample :
    ∃ e first, expand Sample.interface (Sample.through "rt") = .ok e ∧
      (nestedRuntime e.companion.runtime).2 = true ∧
      firstName? e.companion.runtime.children = some first ∧ first.name = "rt" ∧
      ∀ m ∈ e.companion.modules, e.companion.ReachesTrait first m := by
  obtain ⟨e, accepted, imports, first, isFirst, named⟩ :=
    @Sample.through_relative Sample.interface "rt" (by decide +kernel)
  obtain ⟨first', isFirst', -, -, modules⟩ := relative_runtime_iff accepted imports
  obtain rfl : first' = first := Option.some.inj (isFirst'.symm.trans isFirst)
  have others : first'.name ∉ Sample.interface.methods.map (·.signature.name.name) := by
    rw [named]
    decide
  refine ⟨e, first', accepted, imports, isFirst, named, fun m member => ?_⟩
  refine (modules m member).2.2.mpr ⟨others, ?_⟩
  rw [named, List.mem_cons, List.mem_cons, not_or, not_or]
  exact ⟨by decide, by decide, fun type => absurd (m.head_typeNames _ type) (by decide)⟩

/-- The trait logs through `rt` and has a method `rt`.  It is accepted, and in every module the
path stands for the module of the method. -/
theorem relative_runtime_shadowed :
    ∃ e first, expand (Sample.named "rt") (Sample.through "rt") = .ok e ∧
      (nestedRuntime e.companion.runtime).2 = true ∧
      firstName? e.companion.runtime.children = some first ∧
      first.name ∈ e.companion.hiddenItem.binder.names ∧
      ∀ m ∈ e.companion.modules, ¬e.companion.ReachesTrait first m := by
  obtain ⟨e, accepted, imports, first, isFirst, named⟩ :=
    @Sample.through_relative (Sample.named "rt") "rt" (by decide +kernel)
  have declared : first.name ∈ e.companion.modules.map (·.name.name) := by
    rw [moduleNames_of_expand accepted, named]
    decide
  refine ⟨e, first, accepted, imports, isFirst, ?_, fun m _ reached => ?_⟩
  · rw [e.companion.binder_hiddenItem imports]
    exact declared
  · exact ((e.companion.reachesTrait_iff imports).mp reached).1 declared

end LogInterface
