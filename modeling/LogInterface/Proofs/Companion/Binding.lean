/-
# Proofs.Companion.Binding -- placeholders and the parameters of their names

The description of a log method keeps three lists side by side: the segments of the template,
the bindings of its placeholders and the parameters.  Nothing but the order ties them, and the
parameters are fewer than the inputs of the method, because what is no plain identifier is left
out of them.

`Binds` says what a placeholder should be bound to, of its name and the parameters alone, and
`bindings_in_step` that every binding is that one, whatever the names are: repeated, unknown,
empty, or those of raw parameters.  So whoever goes by the bindings might as well go by the names:
a placeholder is paired with the first parameter of its name, and the steps of the message are
those of the segments, each by itself (`Write.ofSegment`), although they were made with the
bindings in hand and one of them taken away at each placeholder.
-/
import LogInterface.Proofs.Companion.Coverage

namespace LogInterface

set_option autoImplicit false

/-! ## One placeholder -/

/-- What a placeholder with a name is bound to: the index of the first parameter of that name,
and nothing if no parameter has it. -/
inductive Binds (parameters : List Parameter) (name : String) : Option Nat → Prop where
  | first {index : Nat} {p : Parameter} : parameters[index]? = some p → p.field = name →
      (∀ q ∈ parameters.take index, q.field ≠ name) → Binds parameters name (some index)
  | unknown : (∀ p ∈ parameters, p.field ≠ name) → Binds parameters name none

theorem binds_bindName (parameters : List Parameter) (name : String) :
    Binds parameters name (bindName parameters name) := by
  cases bound : bindName parameters name with
  | none =>
      refine .unknown fun p member => ?_
      exact ne_of_beq_false (List.findIdx?_eq_none_iff.mp bound p member)
  | some index =>
      obtain ⟨inside, named, earlier⟩ := List.findIdx?_eq_some_iff_getElem.mp bound
      refine .first (List.getElem?_eq_getElem inside) (beq_iff_eq.mp named) fun q member => ?_
      obtain ⟨j, before, rfl⟩ := List.mem_take_iff_getElem.mp member
      exact fun same => earlier j (by omega) (beq_iff_eq.mpr same)

theorem Binds.getElem? {parameters : List Parameter} {name : String} {index : Nat}
    (binds : Binds parameters name (some index)) :
    ∃ p, parameters[index]? = some p ∧ p.field = name := by
  cases binds with
  | first isThere named _ => exact ⟨_, isThere, named⟩

/-- No two bindings are right. -/
theorem binds_iff {parameters : List Parameter} {name : String} {binding : Option Nat} :
    Binds parameters name binding ↔ binding = bindName parameters name := by
  refine ⟨fun binds => ?_, fun same => same ▸ binds_bindName parameters name⟩
  cases binds with
  | unknown others =>
      refine (List.findIdx?_eq_none_iff.mpr fun p member => ?_).symm
      exact beq_false_of_ne (others p member)
  | @first index p isThere named earlier =>
      obtain ⟨inside, rfl⟩ := List.getElem?_eq_some_iff.mp isThere
      have here : (parameters[index].field == name) = true := beq_iff_eq.mpr named
      refine (List.findIdx?_eq_some_iff_getElem.mpr ⟨inside, here, ?_⟩).symm
      intro j before same
      refine earlier _ (List.mem_take_iff_getElem.mpr ⟨j, ?_, rfl⟩) (beq_iff_eq.mp same)
      omega

/-- A name that is used twice, one of a raw parameter, one in another case, and an empty one. -/
example : ["host", "type", "host", "Host", ""].map
    (bindName [⟨⟨"host", .nowhere⟩, .absent, 0⟩, ⟨⟨"r#type", .nowhere⟩, .absent, 2⟩])
      = [some 0, some 1, some 0, none, none] := by decide

/-- The parameter under the index is the first one of the name. -/
theorem bind_bindName (parameters : List Parameter) (name : String) :
    (bindName parameters name).bind (parameters[·]?) = parameters.find? (·.field == name) :=
  List.find?_eq_bind_findIdx?_getElem?.symm

/-! ## All placeholders of a template -/

/-- The step that a segment is.  An empty text is none, and a placeholder without a parameter is
written as it stands. -/
def Write.ofSegment (parameters : List Parameter) : Segment → Option Write
  | .literal literal => if literal = "" then none else some (.text literal)
  | .placeholder name _ =>
      match parameters.find? (·.field == name) with
      | some p => some (.field p.name)
      | none => some (.text ("\x7b" ++ name ++ "\x7d"))

/-- The step of a placeholder, made with its binding. -/
theorem ofHole_bindName (parameters : List Parameter) (name : String) (position : Nat) :
    some (Write.ofHole (parameters.map Parameter.name) name (bindName parameters name))
      = Write.ofSegment parameters (.placeholder name position) := by
  have field : ((bindName parameters name).bind fun index =>
      (parameters.map Parameter.name)[index]?)
        = (parameters.find? (·.field == name)).map Parameter.name := by
    rw [← bind_bindName, Option.map_bind]
    simp only [List.getElem?_map]
    rfl
  rw [Write.ofHole, field, Write.ofSegment]
  cases parameters.find? (·.field == name) <;> rfl

/-- **The bindings stay in step with the placeholders**: with the bindings of all placeholders
behind a point of the template, every segment there becomes its own step. -/
theorem writesOf_bindName (parameters : List Parameter) (segments : List Segment) :
    writesOf (parameters.map Parameter.name) segments
        ((Template.names segments).map (bindName parameters))
      = segments.filterMap (Write.ofSegment parameters) := by
  induction segments with
  | nil => rfl
  | cons segment segments ih =>
      cases segment with
      | literal text =>
          have names : Template.names (.literal text :: segments) = Template.names segments := rfl
          rw [names, writesOf, ih]
          by_cases empty : text = ""
          · rw [if_pos (beq_iff_eq.mpr empty),
              List.filterMap_cons_none (by rw [Write.ofSegment, if_pos empty])]
          · rw [if_neg (by simpa using empty),
              List.filterMap_cons_some (by rw [Write.ofSegment, if_neg empty])]
      | placeholder name position =>
          have names : Template.names (.placeholder name position :: segments)
              = name :: Template.names segments := rfl
          rw [names, List.map_cons, writesOf, ih,
            List.filterMap_cons_some (ofHole_bindName parameters name position).symm]

/-! ## Log methods -/

/-- The bindings of a log method are in step with its placeholders, and what is made with them
is what the names alone would give. -/
structure LogMethod.InStep (l : LogMethod) : Prop where
  /-- There is one binding for each placeholder, in the order of the template. -/
  each : List.Forall₂ (Binds l.parameters) (Template.names l.segments) l.bindings
  /-- Every index is the index of a parameter. -/
  inside : ∀ index, some index ∈ l.bindings → index < l.parameters.length
  /-- A placeholder is paired with the parameter of its name. -/
  pairs : l.pairs = (Template.names l.segments).map fun name =>
    (name, l.parameters.find? (·.field == name))
  /-- A parameter is referenced if a placeholder is bound to it. -/
  references : ∀ index, l.references index = true ↔
    ∃ name ∈ Template.names l.segments, Binds l.parameters name (some index)
  /-- A placeholder is written as the field of its name. -/
  writes : l.module.writes = l.segments.filterMap (Write.ofSegment l.parameters)

theorem inStep_of_bindings {l : LogMethod}
    (bound : l.bindings = (Template.names l.segments).map (bindName l.parameters)) :
    l.InStep where
  each := by
    rw [bound, List.forall₂_map_right_iff, List.forall₂_same]
    exact fun name _ => binds_bindName l.parameters name
  inside index member := by
    rw [bound] at member
    obtain ⟨name, -, bindsTo⟩ := List.mem_map.mp member
    obtain ⟨p, isThere, -⟩ := (binds_iff.mpr bindsTo.symm).getElem?
    exact (List.getElem?_eq_some_iff.mp isThere).1
  pairs := by
    rw [LogMethod.pairs, bound, ← List.map_prod_left_eq_zip, List.map_map]
    refine List.map_congr_left fun name _ => ?_
    exact congrArg (Prod.mk name) (bind_bindName l.parameters name)
  references index := by
    rw [LogMethod.references, List.contains_iff_mem, bound, List.mem_map]
    simp only [binds_iff, eq_comm]
  writes := by
    rw [← writesOf_bindName, ← bound]
    rfl

/-- **Every placeholder is bound to the parameter of its name**, for every method and all segments:
a log method keeps the segments as they are, has one parameter for each plain identifier among the
inputs, and its bindings are in step with both. -/
theorem bindings_in_step (m : Method) (args : MessageArguments) (segments : List Segment) :
    (LogMethod.bind m args segments).segments = segments ∧
      (LogMethod.bind m args segments).parameterNames = m.signature.idents ∧
      (LogMethod.bind m args segments).InStep :=
  ⟨rfl, parameterNames_bind m args segments, inStep_of_bindings rfl⟩

end LogInterface
