/-
# Proofs.Companion.Record -- what a record tells of its call

`Record.Tells` says what is in the record of a call, of the declaration and the arguments
alone: the level and the event of the method, one field for each argument under the name of
its parameter, and a message that is the expansion of the template.  If no two parameters have
one name, this is the record that a call gives to its logger (`record_tells`).

Sinks differ in what they do with a message.  One that writes it converts an argument once for
each placeholder that names its parameter (`count_conversions`), and then the text of the
argument stands in what was written (`occurs_of_hole`).  Both follow the steps of the message
along the segments of the template.
-/
import LogInterface.Proofs.Companion.Called
import LogInterface.Proofs.Logging.Fields

namespace LogInterface

open LogInterface.Format

set_option autoImplicit false

/-! ## Arguments under their names -/

namespace Signature

/-- No two parameters have one name, with or without `r#`. -/
def Distinct (s : Signature) : Prop := (s.idents.map Ident.name).Nodup

instance (s : Signature) : Decidable s.Distinct :=
  inferInstanceAs (Decidable (s.idents.map Ident.name).Nodup)

/-- The fields of a call: each argument under the name of its parameter. -/
def fields (s : Signature) (arguments : List Argument) : List Field :=
  (s.idents.zip (Passed.numbered arguments)).map fun (i, p) =>
    ⟨i.name, p.argument.value, some p.number⟩

/-- The text of the argument for the parameter of a name. -/
def text? (s : Signature) (spec : Spec) (arguments : List Argument) (name : String) :
    Option String :=
  (((s.idents.map Ident.name).zip arguments).find? (·.1 == name)).map
    fun binding => binding.2.value.display spec

theorem fields_getElem? (s : Signature) {arguments : List Argument} {index : Nat} {i : Ident}
    {a : Argument} (isParameter : s.idents[index]? = some i)
    (passed : arguments[index]? = some a) :
    (s.fields arguments)[index]? = some ⟨i.name, a.value, some index⟩ := by
  have both : (s.idents.zip (Passed.numbered arguments))[index]? = some (i, ⟨index, a⟩) :=
    List.getElem?_zip_eq_some.mpr ⟨isParameter, numbered_getElem? passed⟩
  rw [fields, List.getElem?_map, both]
  rfl

theorem fields_names (s : Signature) {arguments : List Argument}
    (full : arguments.length = s.idents.length) :
    (s.fields arguments).map Field.name = s.idents.map Ident.name := by
  have bound : (s.idents.zip (Passed.numbered arguments)).map Prod.fst = s.idents :=
    List.map_fst_zip (by rw [numbered_length, full])
  rw [fields, List.map_map]
  show (s.idents.zip (Passed.numbered arguments)).map (Ident.name ∘ Prod.fst) = _
  rw [← List.map_map, bound]

/-- The parameters of two different places have two names. -/
theorem Distinct.index_eq {s : Signature} (distinct : s.Distinct) {index other : Nat}
    {i j : Ident} (one : s.idents[index]? = some i) (two : s.idents[other]? = some j) :
    other = index ↔ j.name = i.name := by
  constructor
  · rintro rfl
    cases one.symm.trans two
    rfl
  · intro same
    have inside : other < (s.idents.map Ident.name).length := by
      rw [List.length_map]
      exact (List.getElem?_eq_some_iff.mp two).1
    refine (List.getElem?_inj inside distinct).mp ?_
    rw [List.getElem?_map, List.getElem?_map, one, two, Option.map_some, Option.map_some, same]

end Signature

theorem numbered_arguments (arguments : List Argument) :
    (Passed.numbered arguments).map Passed.argument = arguments := by
  rw [Passed.numbered, List.map_map]
  exact List.zipIdx_map_fst 0 arguments

/-! ## Messages of a view -/

section Steps

variable {x : MethodModule} {arguments : List Argument} {segments : List Segment}

theorem textOf_numbered {s : Signature} (fields : x.fields = s.idents) (spec : Spec) :
    x.textOf spec (Passed.numbered arguments) = s.text? spec arguments := by
  funext name
  rw [Signature.text?, ← numbered_arguments arguments, List.zip_map_right, List.find?_map,
    numbered_arguments, MethodModule.textOf, fields, Option.map_map]
  rfl

/-- A field is looked up by its name. -/
theorem MethodModule.part_congr (x : MethodModule) (view : List Passed) {i j : Ident}
    (same : i.name = j.name) : x.part view (.field i) = x.part view (.field j) := by
  rw [part, part, Scope.find?, Scope.find?, same]

/-- A placeholder is written as the argument for the parameter of its name. -/
theorem part_numbered {s : Signature} (fields : x.fields = s.idents) (distinct : s.Distinct)
    {index : Nat} {i : Ident} {a : Argument} (isParameter : s.idents[index]? = some i)
    (passed : arguments[index]? = some a) :
    x.part (Passed.numbered arguments) (.field i) = .value a.value (some index) := by
  rw [MethodModule.part, fields, Scope.find?, MethodModule.find?_zip_fields distinct isParameter
    (numbered_getElem? passed)]
  rfl

theorem exists_passed {s : Signature} (full : arguments.length = s.idents.length) {i : Ident}
    (member : i ∈ s.idents) :
    ∃ (index : Nat) (a : Argument), s.idents[index]? = some i ∧ arguments[index]? = some a := by
  obtain ⟨index, inside, rfl⟩ := List.mem_iff_getElem.mp member
  exact ⟨index, _, List.getElem?_eq_getElem inside, List.getElem?_eq_getElem (full ▸ inside)⟩

theorem names_filled (segments : List Segment) :
    Template.names (Template.filled segments) = Template.names segments := by
  rw [Template.names, Template.names, Template.filled, List.filterMap_filter]
  refine List.filterMap_congr fun segment _ => ?_
  cases segment with
  | literal text => simp [Segment.name?]
  | placeholder name position => simp

/-- **An argument is converted once for each placeholder** of its parameter. -/
theorem count_conversions {s : Signature} (fields : x.fields = s.idents) (distinct : s.Distinct)
    (full : arguments.length = s.idents.length) {writes : List Write}
    (steps : List.Forall₂ (Write.Follows x.fields) segments writes) {index : Nat} {i : Ident}
    (isParameter : s.idents[index]? = some i) :
    (Message.conversions (writes.map (x.part (Passed.numbered arguments)))).count index
      = (Template.names segments).count i.name := by
  induction steps with
  | nil => rfl
  | cons first _ ih =>
      cases first with
      | text t => exact ih
      | @field j position member =>
          rw [fields] at member
          obtain ⟨other, a, isOther, passed⟩ := exists_passed full member
          have part := part_numbered fields distinct isOther passed
          have same : (other == index) = (j.name == i.name) :=
            Bool.eq_iff_iff.mpr (by simpa using distinct.index_eq isParameter isOther)
          rw [List.map_cons, part]
          show (other :: Message.conversions _).count index
            = (j.name :: Template.names _).count i.name
          rw [List.count_cons, List.count_cons, ih, same]

/-- **The text of an argument with a placeholder stands in the message.** -/
theorem occurs_of_hole {s : Signature} (fields : x.fields = s.idents) (distinct : s.Distinct)
    {writes : List Write} (steps : List.Forall₂ (Write.Follows x.fields) segments writes)
    (spec : Spec) {index : Nat} {i : Ident} {a : Argument}
    (isParameter : s.idents[index]? = some i) (passed : arguments[index]? = some a)
    (hole : i.name ∈ Template.names segments) :
    (a.value.display spec).toList <:+:
      (Message.render spec (writes.map (x.part (Passed.numbered arguments)))).toList := by
  have written : ∃ w ∈ writes, (x.part (Passed.numbered arguments) w).render spec
      = a.value.display spec := by
    obtain ⟨segment, isSegment, named⟩ := List.mem_filterMap.mp hole
    obtain ⟨w, isStep, follows⟩ := exists_of_forall₂ steps.flip _ isSegment
    refine ⟨w, isStep, ?_⟩
    cases follows with
    | text t => cases named
    | @field j position member =>
        have same : j.name = i.name := Option.some.inj named
        rw [x.part_congr _ same, part_numbered fields distinct isParameter passed]
        rfl
  obtain ⟨w, isStep, text⟩ := written
  rw [Message.render, String.toList_join, List.flatMap_def, ← text]
  refine List.infix_of_mem_flatten (List.mem_map_of_mem ?_)
  rw [List.map_map]
  exact List.mem_map_of_mem isStep

end Steps

/-! ## Records of calls -/

/-- The record tells of a call of the method, whose message has these arguments. -/
structure Record.Tells (r : Record) (m : Method) (args : MessageArguments)
    (arguments : List Argument) : Prop where
  level : r.level = args.level
  event : r.event = ⟨args.event.value, m.signature.name.name⟩
  fields : r.fields = ⟨arguments.length, (m.signature.fields arguments).map some⟩
  /-- The message is the expansion of the template, in whatever form it is written. -/
  message : ∀ spec, Template.expansion (m.signature.text? spec arguments) args.message.value
    = some (Message.render spec r.message)
  /-- Writing it converts an argument once for each of its placeholders. -/
  converts : ∀ (index : Nat) (i : Ident), m.signature.idents[index]? = some i →
    (Message.conversions r.message).count index = (Template.holes args.message.value).count i.name
  /-- An argument with a placeholder stands in it. -/
  occurs : ∀ (index : Nat) (i : Ident) (a : Argument), m.signature.idents[index]? = some i →
    arguments[index]? = some a → i.name ∈ Template.holes args.message.value →
      a.value.text.toList <:+: r.render.toList

theorem record_tells {m : Method} {into : Ident} {args : MessageArguments}
    {segments : List Segment} (carries : m.Carries args segments) (logging : m.IsLogging into args)
    (distinct : m.signature.Distinct) {arguments : List Argument}
    (full : arguments.length = m.signature.idents.length) :
    ((LogMethod.bind m args segments).record (Passed.numbered arguments)).Tells m args
      arguments := by
  have fields : (LogMethod.bind m args segments).module.fields = m.signature.idents :=
    parameterNames_bind m args segments
  have writes := writes_of_bind carries logging
  have holes : Template.names (Template.filled segments) = Template.holes args.message.value :=
    (names_filled segments).trans (Template.names_of_parse carries.parsed)
  rw [LogMethod.record, view_numbered distinct full]
  refine ⟨rfl, rfl, ?fields, fun spec => ?message, fun index i isParameter => ?converts,
    fun index i a isParameter passed hole => ?occurs⟩
  case fields =>
    show FieldSet.mk _ _ = _
    rw [fields, full, Signature.fields, List.map_map]
    rfl
  case message =>
    rw [← textOf_numbered fields]
    exact writes.expands spec _ (by rw [numbered_length, full, fields])
  case converts =>
    rw [← holes]
    exact count_conversions fields distinct full writes.steps isParameter
  case occurs =>
    rw [← holes] at hole
    exact occurs_of_hole fields distinct writes.steps .plain isParameter passed hole

end LogInterface
