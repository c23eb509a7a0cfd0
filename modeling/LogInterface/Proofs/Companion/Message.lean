/-
# Proofs.Companion.Message -- messages expand their templates

A generated view writes its message in steps that were fixed when the companion
was made.  Written with any arguments, the message is the one-pass expansion of
the template (`message_expands`).

The steps follow the segments of the template (`writesOf_follows`): there is a text
for every text that is not empty and a field for every placeholder, with the name
of that placeholder.  This is where the rule for placeholders is needed: the list of
bindings stays in step with the placeholders, and none of them is empty.

The body that is generated is read back statement by statement (`writes?_displayItem`), so
the expansion is what its own statements write (`written_spec`).
-/
import LogInterface.Companion.Call
import LogInterface.Proofs.Companion.Coverage
import LogInterface.Proofs.Companion.Reader
import LogInterface.Proofs.Template.Expansion

namespace LogInterface

open LogInterface.Format

set_option autoImplicit false

/-! ## Steps -/

/-- The step that a segment becomes: a text is itself, a placeholder the field of
its name. -/
inductive Write.Follows (fields : List Ident) : Segment → Write → Prop where
  | text (s : String) : Follows fields (.literal s) (.text s)
  | field {i : Ident} (position : Nat) :
      i ∈ fields → Follows fields (.placeholder i.name position) (.field i)

/-- The segments without empty texts. -/
def Template.filled (segments : List Segment) : List Segment :=
  segments.filter (· ≠ .literal "")

/-- A binding is the number of a parameter of that name. -/
theorem bindName_eq_some {parameters : List Parameter} {name : String} {index : Nat}
    (bound : bindName parameters name = some index) :
    ∃ i, (parameters.map Parameter.name)[index]? = some i ∧ i.name = name := by
  have found := List.of_findIdx?_eq_some bound
  cases at_index : parameters[index]? with
  | none => simp [at_index] at found
  | some p =>
      refine ⟨p.name, by rw [List.getElem?_map, at_index]; rfl, ?_⟩
      simpa [at_index, Parameter.field] using found

/-- **The steps follow the segments**, if every placeholder is bound. -/
theorem writesOf_follows {parameters : List Parameter} {segments : List Segment}
    (bound : ∀ name ∈ Template.names segments, bindName parameters name ≠ none) :
    List.Forall₂ (Write.Follows (parameters.map Parameter.name)) (Template.filled segments)
      (writesOf (parameters.map Parameter.name) segments
        ((Template.names segments).map (bindName parameters))) := by
  induction segments with
  | nil => exact .nil
  | cons segment segments ih =>
      cases segment with
      | literal text =>
          have rest := ih bound
          by_cases empty : text = ""
          · subst empty
            exact rest
          · have kept : Template.filled (.literal text :: segments)
                = .literal text :: Template.filled segments :=
              List.filter_cons_of_pos (by simp [empty])
            rw [kept, writesOf, if_neg (by simp [empty])]
            exact .cons (.text text) rest
      | placeholder name position =>
          -- The bindings lose their first member here and nowhere else.
          obtain ⟨first, others⟩ := List.forall_mem_cons.mp bound
          obtain ⟨index, binding⟩ := Option.ne_none_iff_exists'.mp first
          obtain ⟨i, at_index, rfl⟩ := bindName_eq_some binding
          have kept : Template.filled (.placeholder i.name position :: segments)
              = .placeholder i.name position :: Template.filled segments :=
            List.filter_cons_of_pos (by simp)
          have names : Template.names (.placeholder i.name position :: segments)
              = i.name :: Template.names segments := rfl
          rw [kept, names, List.map_cons, writesOf, binding, Write.ofHole, Option.bind_some,
            at_index]
          exact .cons (.field position (List.mem_of_getElem? at_index)) (ih others)

/-! ## Texts of a view -/

/-- A name that an argument was bound to leads to one. -/
theorem exists_find?_zip {names : List Ident} {arguments : List Passed}
    (full : arguments.length = names.length) {i : Ident} (member : i ∈ names) :
    ∃ p, Scope.find? ((names.map Ident.name).zip arguments) i = some p := by
  have listed : i.name ∈ ((names.map Ident.name).zip arguments).map Prod.fst := by
    rw [List.map_fst_zip (by rw [List.length_map, full])]
    exact List.mem_map_of_mem member
  obtain ⟨binding, inScope, named⟩ := List.mem_map.mp listed
  have found : (((names.map Ident.name).zip arguments).find? (·.1 == i.name)).isSome :=
    List.find?_isSome.mpr ⟨binding, inScope, beq_iff_eq.mpr named⟩
  obtain ⟨first, isFirst⟩ := Option.isSome_iff_exists.mp found
  exact ⟨first.2, by rw [Scope.find?, isFirst]; rfl⟩

namespace MethodModule

/-- The text of the first field with a name, in a view that is written in a form. -/
def textOf (x : MethodModule) (spec : Spec) (view : List Passed) (name : String) : Option String :=
  (((x.fields.map Ident.name).zip view).find? (·.1 == name)).map
    fun binding => binding.2.argument.value.display spec

theorem textOf_isSome {x : MethodModule} {spec : Spec} {view : List Passed}
    (full : view.length = x.fields.length) {i : Ident} (member : i ∈ x.fields) :
    ∃ p, Scope.find? ((x.fields.map Ident.name).zip view) i = some p ∧
      x.textOf spec view i.name = some (p.argument.value.display spec) := by
  obtain ⟨p, inScope⟩ := exists_find?_zip full member
  have text : x.textOf spec view i.name
      = (Scope.find? ((x.fields.map Ident.name).zip view) i).map
          fun p => p.argument.value.display spec := by
    rw [textOf, Scope.find?, Option.map_map]
    rfl
  exact ⟨p, inScope, by rw [text, inScope]; rfl⟩

/-- If no two fields have one name, a field is found at its own place. -/
theorem find?_zip_fields {fields : List Ident} (distinct : (fields.map Ident.name).Nodup)
    {view : List Passed} {index : Nat} {i : Ident} {p : Passed} (field : fields[index]? = some i)
    (passed : view[index]? = some p) :
    ((fields.map Ident.name).zip view).find? (·.1 == i.name) = some (i.name, p) := by
  induction fields generalizing view index with
  | nil => cases field
  | cons first fields ih =>
      cases view with
      | nil => cases passed
      | cons q view =>
          obtain ⟨fresh, distinct⟩ := List.nodup_cons.mp distinct
          rw [List.map_cons, List.zip_cons_cons]
          cases index with
          | zero =>
              cases field
              cases passed
              exact List.find?_cons_of_pos (beq_self_eq_true _)
          | succ index =>
              have member : i.name ∈ fields.map Ident.name :=
                List.mem_map_of_mem (List.mem_of_getElem? field)
              have other : first.name ≠ i.name := fun same => fresh (by rw [same]; exact member)
              rw [List.find?_cons_of_neg (by simpa using other)]
              exact ih distinct field passed

theorem textOf_getElem? {x : MethodModule} (distinct : (x.fields.map Ident.name).Nodup)
    (spec : Spec) {view : List Passed} {index : Nat} {i : Ident} {p : Passed}
    (field : x.fields[index]? = some i) (passed : view[index]? = some p) :
    x.textOf spec view i.name = some (p.argument.value.display spec) := by
  rw [textOf, find?_zip_fields distinct field passed]
  rfl

/-- A step writes what its segment expands to. -/
theorem expanded_of_follows {x : MethodModule} {spec : Spec} {view : List Passed}
    (full : view.length = x.fields.length) {segment : Segment} {w : Write}
    (follows : Write.Follows x.fields segment w) :
    segment.expanded (x.textOf spec view) = some ((x.part view w).render spec) := by
  cases follows with
  | text s => rfl
  | field position member =>
      obtain ⟨p, inScope, text⟩ := textOf_isSome full member
      rw [part, inScope]
      exact text

end MethodModule

/-- Empty texts add nothing. -/
theorem Template.joined_filled (text : String → Option String) (segments : List Segment) :
    joined ((filled segments).map (Segment.expanded text))
      = joined (segments.map (Segment.expanded text)) := by
  induction segments with
  | nil => rfl
  | cons segment segments ih =>
      by_cases empty : segment = .literal ""
      · subst empty
        rw [List.map_cons]
        exact ih.trans (joined_empty _).symm
      · rw [filled, List.filter_cons_of_pos (by simp [empty]), ← filled, List.map_cons, joined, ih]
        rfl

theorem MethodModule.render_message {x : MethodModule} {segments : List Segment}
    (steps : List.Forall₂ (Write.Follows x.fields) (Template.filled segments) x.writes)
    (spec : Spec) {view : List Passed} (full : view.length = x.fields.length) :
    Template.joined (segments.map (Segment.expanded (x.textOf spec view)))
      = some (Message.render spec (x.message view)) := by
  have texts : (Template.filled segments).map (Segment.expanded (x.textOf spec view))
      = (x.writes.map fun w => (x.part view w).render spec).map some := by
    rw [← List.forall₂_eq_eq_eq, List.forall₂_map_left_iff, List.map_map,
      List.forall₂_map_right_iff]
    exact steps.imp fun _ _ follows => expanded_of_follows full follows
  rw [← Template.joined_filled, texts, Template.joined_map_some, Message.render,
    MethodModule.message, List.map_map]
  rfl

/-! ## The generated body -/

/-- No step is an empty text. -/
theorem MethodModule.filled_writes {x : MethodModule} {segments : List Segment}
    (steps : List.Forall₂ (Write.Follows x.fields) (Template.filled segments) x.writes) :
    ∀ w ∈ x.writes, w ≠ .text "" := by
  rintro w member rfl
  obtain ⟨segment, isFilled, follows⟩ := exists_of_forall₂ steps _ member
  cases follows
  simp [Template.filled] at isFilled

/-- What the statements of the generated body write: the steps, and the same message. -/
theorem MethodModule.written_spec {x : MethodModule} (runtime : List Tree)
    (filled : ∀ w ∈ x.writes, w ≠ .text "") :
    ∃ written, (x.displayItem runtime).writes? runtime = some written ∧
      written.filter (· ≠ .text "") = x.writes ∧
      ∀ (spec : Spec) (view : List Passed),
        Message.render spec (written.map (x.part view)) = Message.render spec (x.message view) := by
  refine ⟨_, x.writes?_displayItem runtime, ?_, fun spec view => ?_⟩
  · split
    · rename_i none
      rw [List.isEmpty_iff.mp none]
      rfl
    · exact List.filter_eq_self.mpr fun w member => decide_eq_true (filled w member)
  · split
    · rename_i none
      rw [MethodModule.message, List.isEmpty_iff.mp none]
      rfl
    · rfl

/-! ## Accepted traits -/

/-- The module writes the message of the method, whose template has these segments. -/
structure MethodModule.Writes (m : Method) (args : MessageArguments) (segments : List Segment)
    (x : MethodModule) : Prop where
  carries : m.Carries args segments
  /-- Every input is a field, in the order of the declaration. -/
  fields : m.signature.patterns = x.fields.map .name
  /-- Every segment but an empty text is one step, and a placeholder is a field. -/
  steps : List.Forall₂ (Write.Follows x.fields) (Template.filled segments) x.writes
  /-- The steps write the expansion of the template. -/
  expands : ∀ (spec : Spec) (view : List Passed), view.length = x.fields.length →
    Template.expansion (x.textOf spec view) args.message.value
      = some (Message.render spec (x.message view))
  /-- A placeholder expands to the argument that was passed for the field of its name. -/
  texts : (x.fields.map Ident.name).Nodup → ∀ (spec : Spec) (view : List Passed) (index : Nat)
    (i : Ident) (p : Passed), x.fields[index]? = some i → view[index]? = some p →
      x.textOf spec view i.name = some (p.argument.value.display spec)
  /-- The function that is generated to write the message, as items and as tokens. -/
  emitted : ∀ runtime : List Tree,
    (x.displayItem runtime).tokens = x.displayTokens (treesTokens runtime)
  /-- Its statements are the steps, and what they write is the expansion of the template. -/
  body : ∀ runtime : List Tree, ∃ written, (x.displayItem runtime).writes? runtime = some written ∧
    written.filter (· ≠ .text "") = x.writes ∧
    ∀ (spec : Spec) (view : List Passed), view.length = x.fields.length →
      Template.expansion (x.textOf spec view) args.message.value
        = some (Message.render spec (written.map (x.part view)))

theorem writes_of_bind {m : Method} {into : Ident} {args : MessageArguments}
    {segments : List Segment} (carries : m.Carries args segments)
    (logging : m.IsLogging into args) :
    MethodModule.Writes m args segments (LogMethod.bind m args segments).module := by
  have bound : ∀ name ∈ Template.names segments,
      bindName (parametersFrom 0 m.signature.inputs) name ≠ none := by
    intro name member unbound
    rw [Template.names_of_parse carries.parsed] at member
    obtain ⟨i, isParameter, named⟩ := logging.bound name member
    exact bindName_parametersFrom.mp unbound i isParameter named
  have steps : List.Forall₂ (Write.Follows (LogMethod.bind m args segments).module.fields)
      (Template.filled segments) (LogMethod.bind m args segments).module.writes :=
    writesOf_follows bound
  have expands (spec : Spec) {view : List Passed}
      (full : view.length = (LogMethod.bind m args segments).module.fields.length) :
      Template.expansion ((LogMethod.bind m args segments).module.textOf spec view)
          args.message.value
        = some (Message.render spec ((LogMethod.bind m args segments).module.message view)) := by
    rw [← Template.joined_segments _ carries.parsed]
    exact MethodModule.render_message steps spec full
  refine ⟨carries, (module_of_bind logging.signature).fields, steps,
    fun spec view full => expands spec full,
    fun distinct spec view index i p field passed =>
      MethodModule.textOf_getElem? distinct spec field passed,
    MethodModule.displayItem_tokens _, fun runtime => ?_⟩
  obtain ⟨written, read, same, renders⟩ :=
    MethodModule.written_spec runtime (MethodModule.filled_writes steps)
  exact ⟨written, read, same, fun spec view full => by rw [renders, expands spec full]⟩

/-- **The messages of an accepted trait are the expansions of its templates**: for
every method, and for all arguments, in whatever form they are written. -/
theorem message_expands {t : TraitDecl} {cx : Context} {e : Expansion}
    (accepted : expand t cx = .ok e) :
    List.Forall₂ (fun m x => ∃ args segments, MethodModule.Writes m args segments x) t.methods
      e.companion.modules := by
  rw [(methods_of_expand accepted).1]
  exact forall_of_expand accepted fun _ _ args segments carries logging =>
    ⟨args, segments, writes_of_bind carries logging⟩

theorem message_expands_sample :
    ∃ e, expand Sample.interface Sample.context = .ok e ∧
      List.Forall₂ (fun m x => ∃ args segments, MethodModule.Writes m args segments x)
        Sample.interface.methods e.companion.modules := by
  obtain ⟨e, accepted⟩ := Sample.accepted
  exact ⟨e, accepted, message_expands accepted⟩

end LogInterface
