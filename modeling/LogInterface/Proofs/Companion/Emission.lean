/-
# Proofs.Companion.Emission -- what the generated items say

The items of a companion are read back here: the modules in the hidden module, the methods of the
extension trait, the functions that implement the interface, and the paths in the list of events.
What is read is what the companion lists, entry by entry and in the same order (`Companion.Emits`),
so a companion covers its trait in the items that are written, not only in the lists that they are
written from (`companion_covers`).

A call can be read from the items as well (`Companion.perform?`): methods and modules are looked up
by name among what was read, and the bodies are done statement by statement.  That is what
`Companion.call?` answers (`perform?_of_expand`).
-/
import LogInterface.Proofs.Companion.Body
import LogInterface.Proofs.Companion.Manifest

namespace LogInterface

open Token Build

set_option autoImplicit false

/-! ## Reading items -/

namespace Tree

def fieldIdent? : Tree → Option Ident
  | .node .field [_, _, .token (.ident text place), _, _] => some ⟨text, place⟩
  | _ => none

def structFields : Tree → List Ident
  | .node .structItem [_, _, _, _, _, _, .group .brace _ _ fields, _, _] =>
      (elements fields).filterMap fieldIdent?
  | _ => []

/-- The implementation of a trait: the path of the trait and the items. -/
def implementation? : Tree → Option (List String × List Tree)
  | .node .implItem [_, _, _, _, _, .node .asTrait [_, .node .pathType [.node .path path], _], _, _,
      .group .brace _ _ (_ :: items)] => some (path.filterMap segmentName?, items)
  | _ => none

/-- The function in the implementation of `Display`, among some items. -/
def displayFunction? (items : List Tree) : Option Tree :=
  ((items.filterMap implementation?).find? (·.1 == ["core", "fmt", "Display"])).bind (·.2.head?)

/-- The module of a method, if its event has the name of the method.  An empty text is no step. -/
def methodModule? (runtime : List Tree) (t : Tree) : Option MethodModule := do
  let name ← t.declared?
  let event ← ((constant? t.moduleItems ["EVENT"]).bind constantValue?).bind eventId?
  let view ← t.moduleItems.find? (isItem .structItem "Fields")
  let written ← (displayFunction? t.moduleItems).bind (writes? runtime)
  if event.name = name.name then
    return { name, event := event.number, fields := view.structFields
             writes := written.filter (· ≠ .text "") }
  else none

end Tree

/-- The modules in the modules among some items. -/
def innerModules (items : List Tree) : List Tree :=
  (items.flatMap Tree.moduleItems).filter (·.is .modItem)

/-- The methods of the traits among some items. -/
def traitMethods (items : List Tree) : List Method :=
  items.flatMap fun item =>
    match item with
    | .trait t => t.methods
    | _ => []

/-- The items of the implementations of traits among some items. -/
def implementedItems (items : List Tree) : List Tree :=
  (items.filterMap Tree.implementation?).flatMap Prod.snd

/-- What the constants among some items list. -/
def listedPaths (items : List Tree) : List Tree :=
  ((items.filterMap Tree.constantValue?).filterMap Tree.listed?).flatten

/-- The items say what the companion lists, in its order. -/
structure Companion.Emits (c : Companion) (items : List Tree) : Prop where
  /-- Each inner module is the module of one method. -/
  modules : (innerModules items).map (Tree.methodModule? (nestedSegments c.runtime))
    = c.modules.map some
  /-- Each method of the extension trait logs what it captures, except the last, which wraps the
  logger. -/
  extensions : (traitMethods items).map
      (Method.logBody? c.runtimePath (Naming.hiddenModule c.name))
    = c.extensions.map (fun y => some (y.signature, y.logBody)) ++ [none]
  /-- Each function of the implementation calls a method of the extension trait. -/
  wrappers : (implementedItems items).map (Tree.forward? (Naming.extensionTrait c.name))
    = c.wrappers.map fun w => some (w.signature, w.forward)
  /-- Each path in the list leads to the event in one of the modules. -/
  events : (listedPaths items).map (Tree.moduleOf? (Naming.hiddenModule c.name) "EVENT")
    = c.events.map some

/-! ## Modules -/

namespace MethodModule

variable (x : MethodModule) (runtime : List Tree)

/-- Parts that declare one field each declare these fields in their order. -/
theorem fieldIdents_flatMap {f : Ident × String → List Tree}
    (one : ∀ p, (elements (f p)).filterMap Tree.fieldIdent? = [p.1]) (ps : List (Ident × String)) :
    (elements (ps.flatMap f)).filterMap Tree.fieldIdent? = ps.map Prod.fst := by
  induction ps with
  | nil => rfl
  | cons p ps ih =>
      rw [List.flatMap_cons, elements, List.filter_append, List.filterMap_append]
      exact congrArg₂ (· ++ ·) (one p) ih

theorem structFields_structTree : x.structTree.structFields = x.fields := by
  by_cases none : x.fields.isEmpty = true
  · rw [structTree, if_pos none]
    exact (List.isEmpty_iff.mp none).symm
  · have count : x.fields.length ≤ x.typeNames.length := by
      rw [typeNames, List.length_map, List.length_range]
    rw [structTree, if_neg none]
    exact (fieldIdents_flatMap (fun _ => rfl) _).trans (List.map_fst_zip count)

/-- A view has no other implementation of `Display`. -/
theorem displayFunction?_items (needed : Bool) :
    Tree.displayFunction? (parentImportItems needed ++ x.eventItem runtime :: x.viewItems runtime)
      = some (x.displayItem runtime) := by
  have imports : (parentImportItems needed).filterMap Tree.implementation? = [] := by
    cases needed <;> rfl
  have struct : x.structTree.implementation? = none :=
    (apply_ite Tree.implementation? _ _ _).trans (ite_self none)
  have other : (((inRuntime runtime ["LogFields"]).filterMap Tree.segmentName?)
      == ["core", "fmt", "Display"]) = false := by
    have names : (inRuntime runtime ["LogFields"]).filterMap Tree.segmentName?
        = runtime.filterMap Tree.segmentName? ++ ["LogFields"] := List.filterMap_append
    rw [names, beq_eq_false_iff_ne]
    exact fun same => absurd (congrArg List.getLast? same) (by simp)
  have implemented : (parentImportItems needed ++ x.eventItem runtime :: x.viewItems runtime).filterMap
      Tree.implementation?
        = [((inRuntime runtime ["LogFields"]).filterMap Tree.segmentName?,
            [x.lenItem, x.choiceItem runtime]),
          (["core", "fmt", "Display"], [x.displayItem runtime])] := by
    rw [List.filterMap_append, imports, List.nil_append, viewItems, List.filterMap_cons_none rfl,
      List.filterMap_cons_none struct]
    rfl
  rw [Tree.displayFunction?, implemented, List.find?_cons_of_neg (by rw [other]; exact Bool.false_ne_true)]
  rfl

end MethodModule

/-- **The module of a method reads as that module.** -/
theorem Companion.methodModule?_moduleTree (c : Companion) {x : MethodModule}
    (fits : fitsInt x.event = true) (filled : ∀ w ∈ x.writes, w ≠ .text "") :
    (c.moduleTree x).methodModule? (nestedSegments c.runtime) = some x := by
  obtain ⟨written, writes, same, -⟩ := x.written_spec (nestedSegments c.runtime) filled
  have event : ((Tree.constant? (c.moduleTree x).moduleItems ["EVENT"]).bind
      Tree.constantValue?).bind Tree.eventId? = some x.eventId := by
    rw [Tree.constant?, c.find?_constItem, Option.bind_some]
    exact x.eventId?_eventItem _ fits
  have view : (c.moduleTree x).moduleItems.find? (Tree.isItem .structItem "Fields")
      = some x.structTree := by
    have struct : Tree.isItem .structItem "Fields" x.structTree = true :=
      (apply_ite (Tree.isItem .structItem "Fields") _ _ _).trans (ite_self true)
    show (parentImportItems (nestedRuntime c.runtime).2
      ++ x.eventItem (nestedSegments c.runtime) :: x.structTree :: _).find? _ = _
    rw [List.find?_append, find?_parentImportItems, Option.none_or,
      List.find?_cons_of_neg (by exact Bool.false_ne_true), List.find?_cons_of_pos struct]
  have display : (Tree.displayFunction? (c.moduleTree x).moduleItems).bind
      (Tree.writes? (nestedSegments c.runtime)) = some written := by
    rw [← writes]
    exact congrArg (Option.bind · _) (x.displayFunction?_items _ _)
  have name : (c.moduleTree x).declared? = some x.name := rfl
  simp only [Tree.methodModule?, name, event, view, display, Option.bind_eq_bind, Option.bind_some,
    x.structFields_structTree, same]
  exact if_pos rfl

/-! ## Companions -/

namespace Companion

variable (c : Companion)

theorem innerModules_items : innerModules c.items = c.modules.map c.moduleTree := by
  have imports : (parentImportItems (nestedRuntime c.runtime).2).filter (·.is .modItem) = [] := by
    cases (nestedRuntime c.runtime).2 <;> rfl
  show List.filter (Tree.is · .modItem)
    ((parentImportItems (nestedRuntime c.runtime).2 ++ c.modules.map c.moduleTree) ++ []) = _
  rw [List.append_nil, List.filter_append, imports, List.nil_append, List.filter_eq_self,
    List.forall_mem_map]
  exact fun _ _ => rfl

theorem traitMethods_items :
    traitMethods c.items = c.extensions.map (·.method c.runtimePath (Naming.hiddenModule c.name))
      ++ [c.intoMethod] := by
  show c.extensionTrait.methods ++ [] = _
  rw [List.append_nil, TraitDecl.methods, extensionTrait, List.filterMap_append,
    List.filterMap_map]
  exact congrArg (· ++ _) (congrFun List.filterMap_eq_map' c.extensions)

theorem implementedItems_items :
    implementedItems c.items = c.wrappers.map (·.item (Naming.extensionTrait c.name)) := by
  show ([] ++ (c.wrappers.map _ ++ [])) = _
  rw [List.append_nil]
  rfl

theorem listedPaths_items :
    listedPaths c.items = c.events.map fun i =>
      valueOf (moduleMember (Naming.hiddenModule c.name) i "EVENT") := by
  show elements (commaTrees (c.events.map fun i =>
    [valueOf (moduleMember (Naming.hiddenModule c.name) i "EVENT")])) ++ [] = _
  rw [List.append_nil]
  exact elements_commaTrees c.events fun _ => rfl

/-- **The items of a companion say what it lists.** -/
theorem emits_items (fits : ∀ x ∈ c.modules, fitsInt x.event = true)
    (filled : ∀ x ∈ c.modules, ∀ w ∈ x.writes, w ≠ .text "") : c.Emits c.items where
  modules := by
    rw [innerModules_items, List.map_map]
    exact List.map_congr_left fun x member =>
      c.methodModule?_moduleTree (fits x member) (filled x member)
  extensions := by
    rw [traitMethods_items, List.map_append, List.map_map]
    exact congrArg (· ++ _) (List.map_congr_left fun y _ => y.logBody?_method _ _)
  wrappers := by
    rw [implementedItems_items, List.map_map]
    exact List.map_congr_left fun w _ => w.forward?_item _
  events := by
    rw [listedPaths_items, List.map_map]
    exact List.map_congr_left fun i _ => by rw [Function.comp_apply, moduleOf?_valueOf]

end Companion

/-! ## Calls -/

namespace Companion

variable {σ : Type} (c : Companion)

/-- Calls a method by its name, if there is one, as the items say. -/
def perform? (items : List Tree) (form : CallForm) (name : Ident) (l : Logger σ) (state : σ)
    (arguments : List Argument) : Option (Logged σ) :=
  let modules := (innerModules items).filterMap (Tree.methodModule? (nestedSegments c.runtime))
  let methods := (traitMethods items).filterMap
    (Method.logBody? c.runtimePath (Naming.hiddenModule c.name))
  let functions := (implementedItems items).filterMap
    (Tree.forward? (Naming.extensionTrait c.name))
  let module? (i : Ident) := modules.find? (·.name.name == i.name)
  let method? (i : Ident) := methods.find? (·.1.name.name == i.name)
  match form with
  | .direct => (method? name).map fun m =>
      m.2.run module? l state (Scope.ofCall m.1 (Passed.numbered arguments))
  | .wrapped => (functions.find? (·.1.name.name == name.name)).bind fun f =>
      (method? f.2.target).map fun m =>
        m.2.run module? (l.through .ref) state (Scope.ofCall m.1
          (f.2.passed.filterMap (Scope.ofCall f.1 (Passed.numbered arguments)).find?))

variable {c} {items : List Tree}

/-- What is read from items is kept in its order. -/
theorem filterMap_of_map {α β γ : Type} {f : α → Option β} {g : γ → β} {xs : List α}
    {ys : List γ} {others : List (Option β)} (none : others.filterMap id = [])
    (same : xs.map f = ys.map (fun y => some (g y)) ++ others) : xs.filterMap f = ys.map g := by
  have read : xs.filterMap f = (xs.map f).filterMap id := by
    rw [List.filterMap_map]
    rfl
  rw [read, same, List.filterMap_append, none, List.append_nil, List.filterMap_map]
  exact congrFun List.filterMap_eq_map' ys

/-- A call that is read from the items does what the companion does, if the name leads to what was
made of one log method. -/
theorem perform?_of_emits (emits : c.Emits items) {name : Ident} {m : LogMethod}
    (finds : c.Finds name m) (own : c.Finds m.name m) (form : CallForm) (l : Logger σ) (state : σ)
    (arguments : List Argument) :
    c.perform? items form name l state arguments = c.call? form name l state arguments := by
  have modules := filterMap_of_map (g := id) (by rfl)
    (emits.modules.trans (List.append_nil (c.modules.map some)).symm)
  have methods := filterMap_of_map (by rfl) emits.extensions
  have functions := filterMap_of_map (by rfl)
    (emits.wrappers.trans (List.append_nil _).symm)
  rw [List.map_id] at modules
  have method {i : Ident} (found : c.extension? i = some m.extension) :
      (c.extensions.map fun y => (y.signature, y.logBody)).find? (·.1.name.name == i.name)
        = some (m.extension.signature, m.extension.logBody) := by
    rw [List.find?_map]
    exact congrArg (Option.map _) found
  have function : (c.wrappers.map fun w => (w.signature, w.forward)).find?
      (·.1.name.name == name.name) = some (m.wrapper.signature, m.wrapper.forward) := by
    rw [List.find?_map]
    exact congrArg (Option.map _) finds.wrapper
  have module : c.module? m.extension.module = some m.module := own.module
  have run (l : Logger σ) (arguments : List Passed) :
      m.extension.logBody.run (fun i => c.modules.find? (·.name.name == i.name)) l state
        (Scope.ofCall m.extension.signature arguments)
        = c.callExtension m.extension l state arguments :=
    (callExtension_run module rfl l state arguments).symm
  simp only [perform?, modules, methods, functions]
  cases form with
  | direct =>
      rw [call?, finds.extension, method finds.extension]
      exact congrArg some (run l _)
  | wrapped =>
      have target : c.extension? m.wrapper.target = some m.extension := own.extension
      have forwarded : c.extension? m.wrapper.forward.target = some m.extension := own.extension
      simp only [call?, finds.wrapper, function, Option.bind_some, Option.map_some, callWrapper,
        target, method forwarded]
      exact congrArg some (run (l.through .ref) _)

end Companion

/-! ## Accepted traits -/

section

variable {t : TraitDecl} {cx : Context} {e : Expansion}

theorem emits_of_expand (accepted : expand t cx = .ok e) :
    e.companion.Emits e.companion.items := by
  refine e.companion.emits_items (fits_of_expand accepted) fun x member => ?_
  have steps : List.Forall₂ (fun m x => ∃ segments,
      List.Forall₂ (Write.Follows x.fields) (Template.filled segments) x.writes) t.methods
      e.companion.modules := by
    rw [(methods_of_expand accepted).1]
    exact forall_of_expand accepted fun _ _ _ segments carries logging =>
      ⟨segments, (writes_of_bind carries logging).steps⟩
  obtain ⟨-, -, segments, follows⟩ := exists_of_forall₂ steps x member
  exact MethodModule.filled_writes follows

/-- **A call that is read from the items does what the companion does**, for every method of an
accepted trait. -/
theorem perform?_of_expand (accepted : expand t cx = .ok e) {name : Ident} {m : Method}
    (declared : t.method? name = some m) {σ : Type} (form : Companion.CallForm) (l : Logger σ)
    (state : σ) (arguments : List Argument) :
    e.companion.perform? e.companion.items form name l state arguments
      = e.companion.call? form name l state arguments := by
  obtain ⟨into, args, segments, -, -, finds⟩ := finds_of_expand accepted declared
  have own : e.companion.Finds (LogMethod.bind m args segments).name _ :=
    finds.congr (TraitDecl.mem_of_method? declared).2.symm
  exact Companion.perform?_of_emits (emits_of_expand accepted) finds own form l state arguments

end

/-- **The companion of an accepted trait covers it**: nothing is left out, added or moved, among
the methods and among the inputs of each; nor in the items, which say what the companion lists and
are what its tokens are made of. -/
theorem companion_covers {t : TraitDecl} {cx : Context} {e : Expansion}
    (accepted : expand t cx = .ok e) :
    e.companion.Covers t ∧ e.companion.Emits e.companion.items ∧
      (t.Outer → treesTokens e.companion.items = e.companion.tokens) :=
  ⟨covers_of_expand accepted, emits_of_expand accepted, fun outer =>
    e.companion.items_tokens (docs_outer_of_expand accepted outer)⟩

theorem companion_covers_sample :
    ∃ e, expand Sample.interface Sample.context = .ok e ∧ e.companion.Covers Sample.interface ∧
      e.companion.Emits e.companion.items ∧
      (Sample.interface.Outer → treesTokens e.companion.items = e.companion.tokens) := by
  obtain ⟨e, accepted⟩ := Sample.accepted
  exact ⟨e, accepted, companion_covers accepted⟩

end LogInterface
