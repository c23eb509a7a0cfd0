/-
# Proofs.Companion.LawfulView -- the views of accepted traits keep their word

A view is lawful if it answers by the indices in front of its length and by no other.  The length
is written as a number and the choice as arms, and what an arm answers is looked up by a name, so
a look-up that fails would leave a gap.  None fails: every variable that is captured is a
parameter, and every field that an arm reads was set (`exists_find?_zip`).  For that the
parameters need not have names of their own (`find?_capturedBy`).

So whatever a method of an accepted trait is called with, its view is read alike by its indices,
by a walk, by what is said to follow, and by the names of its fields
(`fields_read_alike`).
-/
import LogInterface.Proofs.Companion.Called
import LogInterface.Proofs.Logging.Walk

namespace LogInterface

set_option autoImplicit false

/-! ## Captured arguments -/

/-- What names stand for that are bound to arguments, each in the place of the name. -/
def capturedBy (names : List Ident) (arguments : List Passed) : List Passed :=
  names.filterMap (Scope.find? ((names.map Ident.name).zip arguments))

section Captured

variable {names : List Ident} {arguments : List Passed}

theorem forall_capturedBy (full : arguments.length = names.length) :
    List.Forall₂
      (fun i p => Scope.find? ((names.map Ident.name).zip arguments) i = some p) names
      (capturedBy names arguments) :=
  forall_filterMap fun _ member => exists_find?_zip full member

/-- A name at a place stands for what was captured at this place, even if an earlier name is
the same. -/
theorem find?_capturedBy (full : arguments.length = names.length) {index : Nat} {i : Ident}
    (isName : names[index]? = some i) :
    ∃ p, (capturedBy names arguments)[index]? = some p ∧
      Scope.find? ((names.map Ident.name).zip (capturedBy names arguments)) i = some p := by
  have found := forall_capturedBy full
  obtain ⟨count, each⟩ := List.forall₂_iff_get.mp found
  obtain ⟨inNames, rfl⟩ := List.getElem?_eq_some_iff.mp isName
  have inCaptured : index < (capturedBy names arguments).length := by omega
  have value := each index inNames inCaptured
  refine ⟨_, List.getElem?_eq_getElem inCaptured, ?_⟩
  refine find?_zip_found (fun i j same => ?_) found value (List.getElem_mem inNames)
  rw [Scope.find?, Scope.find?, same]

end Captured

/-! ## Views -/

/-- A set with one field for each captured argument keeps its word. -/
theorem MethodModule.fieldSet_lawful (x : MethodModule) {view : List Passed}
    (full : view.length = x.fields.length) : (x.fieldSet view).Lawful := by
  have given := FieldSet.lawful_ofFields ((x.fields.zip view).map fun slot =>
    Field.mk slot.1.name slot.2.argument.value (some slot.2.number))
  rw [List.length_map, List.length_zip, full, Nat.min_self, List.map_map] at given
  exact given

/-- The written choice answers what the view of the call holds. -/
theorem choose_eq_field {x : MethodModule} {arguments : List Passed}
    (full : arguments.length = x.fields.length) (index : Nat) :
    FieldArm.choose x.arms
        (Setting.apply ((x.fields.map Ident.name).zip arguments) (x.fields.map fun i => ⟨i, i⟩))
        index
      = (x.fieldSet (capturedBy x.fields arguments)).field index := by
  have found := forall_capturedBy full
  rw [Setting.apply_names found, FieldArm.choose, find?_arms, FieldSet.field,
    MethodModule.fieldSet, List.getElem?_map]
  cases isName : x.fields[index]? with
  | none =>
      have beyond : x.fields.length ≤ index := List.getElem?_eq_none_iff.mp isName
      have outside : (x.fields.zip (capturedBy x.fields arguments))[index]? = none := by
        apply List.getElem?_eq_none
        rw [List.length_zip]
        omega
      rw [outside]
      rfl
  | some i =>
      obtain ⟨p, captured, value⟩ := find?_capturedBy full isName
      have slot : (x.fields.zip (capturedBy x.fields arguments))[index]? = some (i, p) :=
        List.getElem?_zip_eq_some.mpr ⟨isName, captured⟩
      rw [Option.map_some, Option.bind_some, value, slot]
      rfl

/-- A view that keeps its word: however the method is called, its choice answers by the indices
of its inputs and by no other. -/
structure MethodModule.LawfulView (m : Method) (x : MethodModule) (y : ExtensionMethod) : Prop
    extends MethodModule.Views m x y where
  /-- What is chosen by an index is the field that the logged record has there. -/
  answers : ∀ arguments : List Argument, arguments.length = m.signature.patterns.length →
    ∀ index,
      FieldArm.choose x.arms
          (Setting.apply (Scope.ofCall y.signature (Passed.numbered arguments)) y.settings) index
        = (x.fieldSet (y.view (Passed.numbered arguments))).field index
  /-- The record has the written length. -/
  counts : ∀ arguments : List Argument,
    (x.fieldSet (y.view (Passed.numbered arguments))).length = m.signature.patterns.length
  lawful : ∀ arguments : List Argument, arguments.length = m.signature.patterns.length →
    (x.fieldSet (y.view (Passed.numbered arguments))).Lawful

theorem lawfulView_of_names {m : Method} {x : MethodModule} {y : ExtensionMethod}
    (fields : m.signature.patterns = x.fields.map .name) (captures : y.captures = x.fields)
    (inputs : y.signature.idents = x.fields) : MethodModule.LawfulView m x y := by
  have count : m.signature.patterns.length = x.fields.length := by rw [fields, List.length_map]
  have numbered {arguments : List Argument}
      (full : arguments.length = m.signature.patterns.length) :
      (Passed.numbered arguments).length = x.fields.length := by
    rw [numbered_length, full, count]
  have viewed (arguments : List Argument) :
      y.view (Passed.numbered arguments) = capturedBy x.fields (Passed.numbered arguments) := by
    rw [ExtensionMethod.view, ofCall_eq, captures, inputs, capturedBy]
  refine ⟨views_of_names fields captures inputs, ?answers, fun _ => count.symm, ?lawful⟩
  case answers =>
    intro arguments full index
    rw [ofCall_eq, ExtensionMethod.settings, captures, inputs, viewed]
    exact choose_eq_field (numbered full) index
  case lawful =>
    intro arguments full
    rw [viewed]
    exact x.fieldSet_lawful (forall_capturedBy (numbered full)).length_eq.symm

theorem lawfulView_of_bind {m : Method} {args : MessageArguments} {segments : List Segment}
    (logging : m.signature.IsLogging) :
    MethodModule.LawfulView m (LogMethod.bind m args segments).module
      (LogMethod.bind m args segments).extension :=
  lawfulView_of_names (module_of_bind logging).fields rfl
    ((idents_plain m.signature).trans (parameterNames_bind m args segments).symm)

/-- **Fields are read alike in all ways**: those of every set that keeps its word, and the views
of an accepted trait are such sets, whatever their methods are called with. -/
theorem fields_read_alike :
    (∀ fs : FieldSet, fs.Lawful → fs.ReadsAlike) ∧
      ∀ (t : TraitDecl) (cx : Context) (e : Expansion), expand t cx = .ok e →
        List.Forall₂ (fun m xy => MethodModule.LawfulView m xy.1 xy.2) t.methods
          (e.companion.modules.zip e.companion.extensions) := by
  refine ⟨fun fs lawful => lawful.readsAlike, fun t cx e accepted => ?_⟩
  rw [(methods_of_expand accepted).1, Interface.companionItems, List.zip_map']
  exact forall_of_expand accepted fun _ _ _ _ _ logging => lawfulView_of_bind logging.signature

/-- Three fields, two of them with one name. -/
def Sample.repeated : List Field :=
  [⟨"host", .str "a", none⟩, ⟨"port", .u64 8080, none⟩, ⟨"host", .str "b", none⟩]

theorem fields_read_alike_sample :
    FieldSet.ReadsAlike ⟨Sample.repeated.length, Sample.repeated.map some⟩ ∧
      ∃ e, expand Sample.interface Sample.context = .ok e ∧
        List.Forall₂ (fun m xy => MethodModule.LawfulView m xy.1 xy.2) Sample.interface.methods
          (e.companion.modules.zip e.companion.extensions) := by
  obtain ⟨e, accepted⟩ := Sample.accepted
  exact ⟨fields_read_alike.1 _ (FieldSet.lawful_ofFields Sample.repeated), e, accepted,
    fields_read_alike.2 _ _ e accepted⟩

end LogInterface
