/-
# Proofs.Companion.Unannotated -- nothing that is generated is annotated

The items of a companion are made of tokens and of what the user wrote: the visibility,
the path of the runtime crate, the signatures and the documentation.  The builders put
no annotated trait around their arguments, so an annotated trait can stand in a
companion only if it stood in one of these (`companion_free`).  Everything the user
wrote is part of the trait or of its annotation, and a path in an annotation is plain:
so the companion of a trait that is free inside is free (`companion_free_of_expand`).
-/
import LogInterface.Proofs.Companion.Items
import LogInterface.Proofs.Generation.Nesting
import LogInterface.Proofs.Parser.Yield

namespace LogInterface

open Build

set_option autoImplicit false

/-! ## Builders -/

namespace Build

@[simp] theorem free_leaf (text : String) : (leaf text).Free := free_token _

@[simp] theorem freeAll_op (text : String) : FreeAll (op text) := freeAll_ofTokens _

@[simp] theorem free_list {ts : List Tree} : (list ts).Free ↔ FreeAll ts := free_node

@[simp] theorem free_attributes {as : List Attribute} :
    (attributes as).Free ↔ ∀ a ∈ as, (Tree.attribute a).Free :=
  free_node.trans freeAll_map

@[simp] theorem free_bracket {d : Delimiter} {ts : List Tree} : (bracket d ts).Free ↔ FreeAll ts :=
  free_group

theorem freeAll_joinWith {separator : List Tree} {xs : List (List Tree)}
    (between : FreeAll separator) (all : ∀ x ∈ xs, FreeAll x) :
    FreeAll (joinWith separator xs) := by
  fun_induction joinWith separator xs with
  | case1 => exact freeAll_nil
  | case2 x => exact all x List.mem_cons_self
  | case3 x xs rest ih =>
      rw [freeAll_append, freeAll_append]
      exact ⟨⟨all x List.mem_cons_self, between⟩,
        ih fun y member => all y (List.mem_cons_of_mem _ member)⟩

theorem freeAll_commaTrees {xs : List (List Tree)} (all : ∀ x ∈ xs, FreeAll x) :
    FreeAll (commaTrees xs) :=
  freeAll_joinWith (freeAll_op ",") all

@[simp] theorem free_body {ts : List Tree} : (body ts).Free ↔ FreeAll ts := by
  simp [body]

@[simp] theorem free_segment {name : List Token} {arguments : Tree} :
    (segment name arguments).Free ↔ arguments.Free := by
  simp [segment]

@[simp] theorem freeAll_rooted (names : List String) : FreeAll (rooted names) := by
  simp [rooted]

@[simp] theorem free_angle {arguments closing : List Tree} :
    (angle arguments closing).Free ↔ FreeAll arguments ∧ FreeAll closing := by
  simp [angle]

@[simp] theorem freeAll_single (name : List Token) : FreeAll (single name) := by
  simp [single]

@[simp] theorem free_typeOf {path : List Tree} : (typeOf path).Free ↔ FreeAll path := by
  simp [typeOf]

@[simp] theorem free_valueOf {path : List Tree} : (valueOf path).Free ↔ FreeAll path := by
  simp [valueOf]

@[simp] theorem free_lit (ts : List Token) : (lit ts).Free := free_node.mpr (freeAll_ofTokens ts)

@[simp] theorem free_call {f : Tree} {arguments : List Tree} :
    (call f arguments).Free ↔ f.Free ∧ FreeAll arguments := by
  simp [call]

@[simp] theorem free_refTo {e : Tree} : (refTo e).Free ↔ e.Free := by
  simp [refTo]

@[simp] theorem free_selfField (name : Token) : (selfField name).Free := by
  simp [selfField]

@[simp] theorem free_statement {e : Tree} {semicolon : Bool} :
    (statement e semicolon).Free ↔ e.Free := by
  cases semicolon <;> simp [statement]

@[simp] theorem free_traitBound {modifier path : List Tree} :
    (traitBound modifier path).Free ↔ FreeAll modifier ∧ FreeAll path := by
  simp [traitBound]

@[simp] theorem free_typeParam {name : List Token} {bounds : Tree} :
    (typeParam name bounds).tree.Free ↔ bounds.Free := by
  simp [typeParam]

@[simp] theorem free_bounds {ts : List Tree} : (bounds ts).Free ↔ FreeAll ts := by
  simp [bounds]

@[simp] theorem free_visible : visible.Free := by
  simp [visible]

@[simp] theorem free_tagged (name : String) (arguments : List Token) :
    (Tree.attribute (tagged name arguments)).Free :=
  (free_of_declares rfl).mpr freeAll_nil

@[simp] theorem free_docLiteral (written : String) : (Tree.attribute (docLiteral written)).Free :=
  (free_of_declares rfl).mpr (by simp [Tree.parts, docLiteral])

@[simp] theorem free_doc (text : String) : (Tree.attribute (doc text)).Free := free_docLiteral _

@[simp] theorem free_rawDoc (text : String) : (Tree.attribute (rawDoc text)).Free :=
  free_docLiteral _

@[simp] theorem free_lint (lints : List String) : (Tree.attribute (lint lints)).Free :=
  free_tagged _ _

@[simp] theorem free_function {as : List Attribute} {seen : Tree} {s : Signature}
    {statements : List Tree} :
    (function as seen s statements).Free ↔
      (∀ a ∈ as, (Tree.attribute a).Free) ∧ seen.Free ∧ (Tree.signature s).Free
        ∧ FreeAll statements := by
  simp [function]

@[simp] theorem free_implementation {as : List Attribute} {g : Generics} {ofTrait type : Tree}
    {items : List Tree} :
    (implementation as g ofTrait type items).Free ↔
      (∀ a ∈ as, (Tree.attribute a).Free) ∧ (∀ p ∈ g.params, p.tree.Free) ∧ ofTrait.Free
        ∧ type.Free ∧ FreeAll items := by
  simp [implementation]

@[simp] theorem free_forTrait {path : List Tree} : (forTrait path).Free ↔ FreeAll path := by
  simp [forTrait]

@[simp] theorem parts_receiver (reference : Option Place) : (receiver reference).parts = [] := rfl

@[simp] theorem parts_parameter (name : String) (type : Tree) :
    (parameter name type).parts = [type] := rfl

@[simp] theorem free_builtSignature {constness : Option Place} {name : Ident} {inputs : List Input}
    {output : Tree} {clause : Option Tree} :
    (Tree.signature (signature constness name inputs (some output) clause)).Free ↔
      (∀ t, clause = some t → t.Free) ∧ (∀ i ∈ inputs, FreeAll i.parts) ∧ output.Free := by
  simp [free_signature, Tree.parts, signature]

end Build

/-! ## Paths -/

@[simp] theorem freeAll_segmentsOf {t : Tree} : FreeAll (segmentsOf t) ↔ t.Free := by
  cases t <;> simp [segmentsOf]

theorem freeAll_segmentsBelow {first : String} {path : Tree} (free : path.Free) :
    FreeAll (segmentsBelow first path path.children) := by
  have children : FreeAll path.children := by
    cases path <;> simp_all [Tree.children]
  have below : ∀ s ∈ (elements path.children).drop 1, s.Free := fun s member =>
    children s (List.mem_filter.mp (List.mem_of_mem_drop member)).1
  unfold segmentsBelow
  repeat' split
  · simp [free]
  · simpa [above] using below
  · simp [above, free]
  · simp [free]

theorem freeAll_nestedSegments {path : Tree} (free : path.Free) :
    FreeAll (nestedSegments path) := by
  unfold nestedSegments
  split
  · exact freeAll_segmentsOf.mpr free
  · exact freeAll_segmentsBelow free
  · exact freeAll_segmentsOf.mpr free

@[simp] theorem freeAll_parentImportItems (needed : Bool) : FreeAll (parentImportItems needed) := by
  cases needed <;> simp [parentImportItems]

@[simp] theorem freeAll_inRuntime {runtime : List Tree} {names : List String} :
    FreeAll (inRuntime runtime names) ↔ FreeAll runtime := by
  simp [inRuntime]

/-! ## Methods -/

@[simp] theorem freeAll_moduleMember (hidden module : Ident) (name : String) :
    FreeAll (moduleMember hidden module name) := by
  simp [moduleMember]

section Methods

variable {runtime : List Tree} (path : FreeAll runtime)

include path

theorem free_eventItem (m : MethodModule) : (m.eventItem runtime).Free := by
  unfold MethodModule.eventItem
  by_cases negative : m.event < 0 <;> simp [negative, path]

theorem free_fieldTree (field : Ident) : (MethodModule.fieldTree runtime field).Free := by
  simp [MethodModule.fieldTree, path]

theorem free_choiceItem (m : MethodModule) : (m.choiceItem runtime).Free := by
  have type : (MethodModule.optionalType runtime).Free := by
    simp [MethodModule.optionalType, path]
  unfold MethodModule.choiceItem
  split
  · simp [type]
  · simp [type, MethodModule.armTree, path, free_fieldTree path]

theorem free_writeTree (w : Write) : (MethodModule.writeTree runtime w).Free := by
  cases w <;>
    simp [MethodModule.writeTree, MethodModule.writeTree.writeText, free_fieldTree path]

theorem free_displayItem (m : MethodModule) : (m.displayItem runtime).Free := by
  unfold MethodModule.displayItem
  split <;> simp [formatterType, MethodModule.writeTree.writeText, free_writeTree path]

theorem freeAll_viewItems (m : MethodModule) : FreeAll (m.viewItems runtime) := by
  have types : FreeAll m.fieldsPath := by
    have arguments :
        FreeAll (commaTrees (m.typeNames.map fun t => [typeOf (single (Token.code t))])) :=
      freeAll_commaTrees (by simp)
    unfold MethodModule.fieldsPath
    split <;> simp [arguments]
  have declared : m.structTree.Free := by
    unfold MethodModule.structTree
    split <;> simp [MethodModule.typeParams]
  have implemented {trait items : List Tree} (free : FreeAll trait) (all : FreeAll items) :
      (m.implTree runtime trait items).Free := by
    simp [MethodModule.implTree, MethodModule.typeParams, path, types, free, all]
  simp [MethodModule.viewItems, declared, implemented, path, free_choiceItem path,
    free_displayItem path, MethodModule.lenItem]

theorem free_methodModule (m : MethodModule) (needed : Bool) : (m.item runtime needed).Free := by
  simp [MethodModule.item, free_eventItem path, freeAll_viewItems path]

theorem freeAll_statements (e : ExtensionMethod) (hidden : Ident) :
    FreeAll (e.statements runtime hidden) := by
  have capture : (e.captureTree hidden).Free := by
    unfold ExtensionMethod.captureTree
    split
    · simp
    · simp [freeAll_commaTrees]
  have level : (levelTree runtime e.level).Free := by
    simp [levelTree, path]
  simp [ExtensionMethod.statements, capture, level, path]

theorem freeAll_method {e : ExtensionMethod} (hidden : Ident)
    (docs : ∀ a ∈ e.docs, (Tree.attribute a).Free) (signature : (Tree.signature e.signature).Free) :
    FreeAll (TraitItem.method (e.method runtime hidden)).parts := by
  have heading : ∀ a ∈ if e.docs.isEmpty then [] else [doc ""], (Tree.attribute a).Free := by
    split <;> simp
  simp only [TraitItem.parts, ExtensionMethod.method, freeAll_append, freeAll_cons, freeAll_map,
    List.forall_mem_append, List.forall_mem_singleton]
  exact ⟨⟨⟨docs, heading⟩, free_doc _⟩, signature,
    by simpa using freeAll_statements path e hidden⟩

end Methods

theorem free_wrapperMethod {w : WrapperMethod} (extension : Ident)
    (signature : (Tree.signature w.signature).Free) : (w.item extension).Free := by
  have arguments : FreeAll (commaTrees (w.arguments.map fun i => [valueOf (single [i.token])])) :=
    freeAll_commaTrees (by simp)
  simp [WrapperMethod.item, signature, arguments]

/-! ## Companions -/

/-- No annotated trait stands in what the user wrote. -/
structure Companion.Unannotated (c : Companion) : Prop where
  visibility : c.visibility.Free
  runtime : c.runtime.Free
  docs : ∀ e ∈ c.extensions, ∀ a ∈ e.docs, (Tree.attribute a).Free
  extensions : ∀ e ∈ c.extensions, (Tree.signature e.signature).Free
  wrappers : ∀ w ∈ c.wrappers, (Tree.signature w.signature).Free

theorem free_extensionTrait {c : Companion} (sources : c.Unannotated) :
    (Tree.trait c.extensionTrait).Free := by
  have path : FreeAll c.runtimePath := freeAll_segmentsOf.mpr sources.runtime
  have into : FreeAll (TraitItem.method c.intoMethod).parts := by
    simp [TraitItem.parts, Companion.intoMethod, Companion.wrapperType]
  have items : FreeAll (c.extensionTrait.items.flatMap TraitItem.parts) := by
    simp only [Companion.extensionTrait, List.flatMap_append, List.flatMap_singleton,
      freeAll_append, freeAll_flatMap, List.forall_mem_map]
    exact ⟨fun e member =>
      freeAll_method path _ (sources.docs e member) (sources.extensions e member), into⟩
  refine free_trait.mpr ⟨rfl, ?_⟩
  simp only [Tree.parts, freeAll_append, freeAll_cons]
  refine ⟨?_, sources.visibility, ?_, ⟨?_, ?_⟩, items⟩ <;>
    simp [Companion.extensionTrait, path]

/-- Nothing in a companion is annotated unless the user wrote it there. -/
theorem companion_free {c : Companion} (sources : c.Unannotated) : FreeAll c.items := by
  have path : FreeAll c.runtimePath := freeAll_segmentsOf.mpr sources.runtime
  have nested : FreeAll (nestedSegments c.runtime) := freeAll_nestedSegments sources.runtime
  have hidden : c.hiddenItem.Free := by
    simp [Companion.hiddenItem, free_methodModule nested]
  have extension : FreeAll c.extensionItems := by
    simp [Companion.extensionItems, free_extensionTrait sources, Companion.extensionImpl,
      Companion.loggers, Companion.loggerTree, path]
  have wrapper : FreeAll c.wrapperItems := by
    simp [Companion.wrapperItems, Companion.wrapperStruct, Companion.wrapperFunctions,
      Companion.wrapperFunction, Companion.wrapperType, Companion.loggers, Companion.loggerTree,
      sources.visibility]
  have implementation : c.implementationItem.Free := by
    have methods : ∀ w ∈ c.wrappers, (w.item (Naming.extensionTrait c.name)).Free :=
      fun w member => free_wrapperMethod _ (sources.wrappers w member)
    simpa [Companion.implementationItem, Companion.wrapperType, Companion.loggers, path]
      using methods
  have events : c.eventsItem.Free := by
    have listed : FreeAll (commaTrees (c.events.map fun m =>
        [valueOf (moduleMember (Naming.hiddenModule c.name) m "EVENT")])) :=
      freeAll_commaTrees (by simp)
    simp [Companion.eventsItem, path, listed, sources.visibility]
  simp [Companion.items, hidden, extension, wrapper, implementation, events]

/-! ## Accepted traits -/

theorem free_plain {s : Signature} (free : (Tree.signature s).Free) :
    (Tree.signature s.plain).Free := by
  rw [free_signature] at free ⊢
  simp only [Tree.parts, freeAll_append, freeAll_cons, freeAll_flatMap] at free ⊢
  obtain ⟨generics, ⟨⟨clause, inputs⟩, variadic⟩, output⟩ := free
  refine ⟨generics, ⟨⟨clause, ?_⟩, variadic⟩, output⟩
  rw [Signature.plain, List.forall_mem_map]
  intro i member
  have parts := inputs i member
  cases i with
  | receiver r => exact (freeAll_append.mp parts).2
  | typed _ pattern _ => cases pattern <;> exact (freeAll_append.mp parts).2

/-- What holds of every method of an accepted trait holds of its description. -/
theorem forall_described_of_expand {t : TraitDecl} {cx : Context} {e : Expansion}
    (accepted : expand t cx = .ok e) {holds : Method → Prop} {holds' : LogMethod → Prop}
    (all : ∀ m ∈ t.methods, holds m)
    (each : ∀ (m : Method) (into : Ident) (args : MessageArguments) (segments : List Segment),
      holds m → m.IsLogging into args → holds' (LogMethod.bind m args segments)) :
    ∀ l ∈ (t.describe cx).1.methods, holds' l := by
  intro l member
  obtain ⟨m, isMethod, described, logging⟩ :=
    exists_of_forall₂ (methods_of_expand accepted).2 l member
  obtain ⟨args, segments, carries, rfl⟩ := describe_ok_iff.mp described
  exact each m _ args segments (all m isMethod) logging

theorem free_of_isPlainPath {t : Tree} (plain : t.IsPlainPath) : t.Free := by
  obtain ⟨p, place, rfl⟩ := plain
  have segments : FreeAll (joinWith (Tree.ofTokens (Token.operator "::"))
      (p.segments.map fun i => [Parser.plainSegment i])) :=
    freeAll_joinWith (freeAll_ofTokens _) (by simp [Parser.plainSegment])
  rw [Parser.PlainPath.tree, free_node, freeAll_append]
  refine ⟨?_, segments⟩
  split
  · exact freeAll_ofTokens _
  · exact freeAll_nil

theorem free_runtime {cx : Context} (runtime : cx.runtime.Free) :
    (cx.extensionArguments.1.runtime.getD cx.runtime).Free := by
  rw [Context.extensionArguments]
  split
  · rename_i args read
    cases asked : args.runtime with
    | none => exact runtime
    | some path => exact free_of_isPlainPath (runtime_plain read path asked)
  · exact runtime

theorem free_methods {t : TraitDecl} (inside : FreeAll (Tree.trait t).parts) :
    ∀ m ∈ t.methods, FreeAll (TraitItem.method m).parts := by
  simp only [Tree.parts, freeAll_append, freeAll_cons, freeAll_flatMap] at inside
  intro m member
  obtain ⟨i, isItem, isMethod⟩ := List.mem_filterMap.mp member
  cases i with
  | method _ =>
      cases isMethod
      exact inside.2.2.2.2 _ isItem
  | other _ => cases isMethod

/-- Nothing that is generated for a trait is annotated if nothing inside the trait is. -/
theorem companion_free_of_expand {t : TraitDecl} {cx : Context} {e : Expansion}
    (accepted : expand t cx = .ok e) (inside : FreeAll (Tree.trait t).parts)
    (runtime : cx.runtime.Free) : FreeAll e.companion.items := by
  have described : ∀ l ∈ (t.describe cx).1.methods,
      (∀ a ∈ l.docs, (Tree.attribute a).Free) ∧ (Tree.signature l.signature).Free := by
    refine forall_described_of_expand accepted (free_methods inside) ?_
    intro m into args segments parts logging
    simp only [TraitItem.parts, freeAll_append, freeAll_cons, freeAll_map] at parts
    exact ⟨fun a member => parts.1 a (List.mem_filter.mp member).1, parts.2.1⟩
  rw [(methods_of_expand accepted).1]
  refine companion_free ⟨?visibility, free_runtime runtime, ?docs, ?extensions, ?wrappers⟩
  case visibility =>
    simp only [Tree.parts, freeAll_append, freeAll_cons] at inside
    exact inside.2.1
  case docs => exact List.forall_mem_map.mpr fun l member => (described l member).1
  case extensions => exact List.forall_mem_map.mpr fun l member => free_plain (described l member).2
  case wrappers => exact List.forall_mem_map.mpr fun l member => free_plain (described l member).2

/-- The documentation of an accepted trait stands in front of its methods. -/
theorem docs_outer_of_expand {t : TraitDecl} {cx : Context} {e : Expansion}
    (accepted : expand t cx = .ok e) (outer : t.Outer) :
    ∀ x ∈ e.companion.extensions, ∀ a ∈ x.docs, a.inner = false := by
  rw [(methods_of_expand accepted).1]
  refine List.forall_mem_map.mpr (forall_described_of_expand accepted outer ?_)
  intro m into args segments inFront logging a member
  exact inFront logging.bodyless a (List.mem_filter.mp member).1

end LogInterface
