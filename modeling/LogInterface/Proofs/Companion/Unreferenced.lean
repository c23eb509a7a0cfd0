/-
# Proofs.Companion.Unreferenced -- parameters that a message does not depend on

The notes about an interface name the parameters that no placeholder of the template is bound
to.  Seen from the outside, these are the parameters that the message does not depend on: to
change the text of one of them changes no message, whatever the other arguments are
(`ignores_iff`).

That nothing else can be noted takes two runs that differ.  Where a placeholder names the
parameter, the text of its argument stands in the message, so a text that is longer than some
message of the method cannot have been passed to it.
-/
import LogInterface.Proofs.Companion.Record

namespace LogInterface

set_option autoImplicit false

/-! ## Texts by name -/

/-- Two rows of values are looked up alike under a name if they agree where the name stands. -/
theorem find?_zip_congr {α : Type} {names : List String} {name : String} {xs ys : List α}
    (full : xs.length = ys.length)
    (agree : ∀ index : Nat, names[index]? = some name → xs[index]? = ys[index]?) :
    ((names.zip xs).find? (·.1 == name)).map Prod.snd
      = ((names.zip ys).find? (·.1 == name)).map Prod.snd := by
  induction names generalizing xs ys with
  | nil => rfl
  | cons first names ih =>
      match xs, ys with
      | [], [] => rfl
      | x :: xs, y :: ys =>
          rw [List.zip_cons_cons, List.zip_cons_cons]
          by_cases found : first = name
          · have same : x = y := by simpa using agree 0 (by rw [found]; rfl)
            rw [List.find?_cons_of_pos (by simpa using found),
              List.find?_cons_of_pos (by simpa using found), same]
          · rw [List.find?_cons_of_neg (by simpa using found),
              List.find?_cons_of_neg (by simpa using found)]
            exact ih (by simpa using full) fun index isThere => agree (index + 1) isThere

def Argument.texts (arguments : List Argument) : List String :=
  arguments.map fun a => a.value.text

theorem Signature.text?_eq (s : Signature) (arguments : List Argument) (name : String) :
    s.text? .plain arguments name
      = (((s.idents.map Ident.name).zip (Argument.texts arguments)).find? (·.1 == name)).map
          Prod.snd := by
  rw [text?, Argument.texts, List.zip_map_right, List.find?_map, Option.map_map]
  rfl

/-- A template expands alike with texts that agree on its placeholders. -/
theorem Template.expansion_congr {text other : String → Option String} {template : String}
    (agree : ∀ name ∈ holes template, text name = other name) :
    expansion text template = expansion other template := by
  have lexemes : (read template.toList).lexemes.map (Lexeme.expanded text)
      = (read template.toList).lexemes.map (Lexeme.expanded other) := by
    refine List.map_congr_left fun l member => ?_
    cases l with
    | hole name => exact agree _ (List.mem_filterMap.mpr ⟨_, member, rfl⟩)
    | _ => rfl
  rw [expansion, expansion, lexemes]

/-! ## What a message depends on -/

namespace MethodModule

def messageText (x : MethodModule) (arguments : List Argument) : String :=
  Message.render .plain (x.message (Passed.numbered arguments))

/-- The message does not depend on a field: for arguments that differ in no other text it is
the same. -/
def Ignores (x : MethodModule) (index : Nat) : Prop :=
  ∀ arguments others : List Argument,
    arguments.length = x.fields.length → others.length = x.fields.length →
    (∀ i, i ≠ index → (Argument.texts arguments)[i]? = (Argument.texts others)[i]?) →
      x.messageText arguments = x.messageText others

variable {m : Method} {args : MessageArguments} {segments : List Segment} {x : MethodModule}

theorem expansion_messageText (writes : x.Writes m args segments)
    (fields : x.fields = m.signature.idents) {arguments : List Argument}
    (full : arguments.length = x.fields.length) :
    Template.expansion (m.signature.text? .plain arguments) args.message.value
      = some (x.messageText arguments) := by
  rw [← textOf_numbered fields]
  exact writes.expands .plain _ (by rw [numbered_length, full])

theorem ignores_of_free (writes : x.Writes m args segments)
    (fields : x.fields = m.signature.idents) {index : Nat} {i : Ident}
    (isParameter : m.signature.idents[index]? = some i)
    (free : i.name ∉ Template.holes args.message.value) : x.Ignores index := by
  intro arguments others full full' agree
  refine Option.some.inj ?_
  rw [← expansion_messageText writes fields full, ← expansion_messageText writes fields full']
  refine Template.expansion_congr fun name hole => ?_
  rw [Signature.text?_eq, Signature.text?_eq]
  refine find?_zip_congr (by simp [Argument.texts, full, full']) fun other named => agree other ?_
  rintro rfl
  rw [List.getElem?_map, isParameter] at named
  exact free (Option.some.inj named ▸ hole)

/-- Where a placeholder names the parameter, a text that is longer than a message changes it. -/
theorem not_ignores_of_hole (writes : x.Writes m args segments)
    (fields : x.fields = m.signature.idents) (distinct : m.signature.Distinct) {index : Nat}
    {i : Ident} (isParameter : m.signature.idents[index]? = some i)
    (hole : i.name ∈ Template.holes args.message.value) : ¬x.Ignores index := by
  intro ignores
  let silent : List Argument := List.replicate x.fields.length (.text "")
  let long : String := String.ofList (List.replicate ((x.messageText silent).length + 1) 'x')
  let loud : List Argument := silent.set index (.text long)
  have full : silent.length = x.fields.length := List.length_replicate
  have full' : loud.length = x.fields.length := by rw [List.length_set, full]
  have inside : index < silent.length := by
    rw [full, fields]
    exact (List.getElem?_eq_some_iff.mp isParameter).1
  have same : x.messageText silent = x.messageText loud := by
    refine ignores silent loud full full' fun other apart => ?_
    rw [Argument.texts, Argument.texts, List.getElem?_map, List.getElem?_map,
      List.getElem?_set_ne (Ne.symm apart)]
  have passed : loud[index]? = some (.text long) := List.getElem?_set_self inside
  have written : i.name ∈ Template.names (Template.filled segments) := by
    rw [names_filled, Template.names_of_parse writes.carries.parsed]
    exact hole
  have occurs : (long.toList <:+: (x.messageText loud).toList) := by
    have text : (Argument.text long).value.text = long := String.ofList_toList
    rw [← text]
    exact occurs_of_hole fields distinct writes.steps .plain isParameter passed written
  have short := occurs.length_le
  rw [← same, String.toList_ofList, List.length_replicate, String.length_toList] at short
  omega

/-- **The message does not depend on a parameter exactly if no placeholder names it.** -/
theorem ignores_iff (writes : x.Writes m args segments) (fields : x.fields = m.signature.idents)
    (distinct : m.signature.Distinct) {index : Nat} {i : Ident}
    (isParameter : m.signature.idents[index]? = some i) :
    x.Ignores index ↔ i.name ∉ Template.holes args.message.value :=
  ⟨fun ignores hole => not_ignores_of_hole writes fields distinct isParameter hole ignores,
    ignores_of_free writes fields isParameter⟩

end MethodModule

/-! ## Notes -/

section Bound

variable {m : Method} {args : MessageArguments} {segments : List Segment}

/-- A placeholder is bound to the one parameter of its name. -/
theorem references_bind (carries : m.Carries args segments) (distinct : m.signature.Distinct)
    {index : Nat} {i : Ident} (isParameter : m.signature.idents[index]? = some i) :
    (LogMethod.bind m args segments).references index = true
      ↔ i.name ∈ Template.holes args.message.value := by
  have names : (parametersFrom 0 m.signature.inputs).map Parameter.name = m.signature.idents :=
    parametersFrom_names 0 m.signature.inputs
  rw [← Template.names_of_parse carries.parsed, LogMethod.references, List.contains_iff_mem]
  show some index ∈ (Template.names segments).map (bindName _) ↔ _
  constructor
  · intro bound
    obtain ⟨name, written, binding⟩ := List.mem_map.mp bound
    obtain ⟨j, isOther, rfl⟩ := bindName_eq_some binding
    rw [names, isParameter] at isOther
    exact Option.some.inj isOther ▸ written
  · intro written
    have bound : bindName (parametersFrom 0 m.signature.inputs) i.name ≠ none := fun unbound =>
      bindName_parametersFrom.mp unbound i (List.mem_of_getElem? isParameter) rfl
    obtain ⟨other, binding⟩ := Option.ne_none_iff_exists'.mp bound
    obtain ⟨j, isOther, named⟩ := bindName_eq_some binding
    rw [names] at isOther
    rw [(distinct.index_eq isParameter isOther).mpr named] at binding
    exact List.mem_map.mpr ⟨i.name, written, binding⟩

open Classical in
/-- The fields that the message does not depend on, in their order. -/
noncomputable def MethodModule.ignored (x : MethodModule) : List Ident :=
  (x.fields.zipIdx.filter fun (_, index) => x.Ignores index).map Prod.fst

theorem unreferenced_bind {into : Ident} (carries : m.Carries args segments)
    (logging : m.IsLogging into args) (distinct : m.signature.Distinct) :
    (LogMethod.bind m args segments).unreferenced.map Parameter.name
      = (LogMethod.bind m args segments).module.ignored := by
  have fields := parameterNames_bind m args segments
  rw [LogMethod.unreferenced, MethodModule.ignored, List.map_map]
  show ((LogMethod.bind m args segments).parameters.zipIdx.filter _).map _
    = (((LogMethod.bind m args segments).parameters.map Parameter.name).zipIdx.filter _).map _
  rw [List.zipIdx_map, List.filter_map, List.map_map]
  refine congrArg (List.map _) (List.filter_congr ?_)
  rintro ⟨p, index⟩ member
  have isParameter : m.signature.idents[index]? = some p.name := by
    rw [← fields, LogMethod.parameterNames, List.getElem?_map,
      List.mem_zipIdx_iff_getElem?.mp member]
    rfl
  have ignores := MethodModule.ignores_iff (writes_of_bind carries logging) fields distinct
    isParameter
  have references := references_bind carries distinct isParameter
  rw [Bool.eq_iff_iff]
  simpa [ignores] using not_congr references

end Bound

theorem notes_of_expand {t : TraitDecl} {cx : Context} {e : Expansion}
    (accepted : expand t cx = .ok e) : e.notes = (t.describe cx).1.notes := by
  change (t.examine cx).expansion t = .ok e at accepted
  rw [Examined.expansion] at accepted
  split at accepted
  · cases accepted
    rfl
  · cases accepted

/-- What is listed for the members of one list is listed for them and their partners. -/
theorem flatMap_eq_zip {α β γ δ : Type} {make : β → γ} {one : β → List δ} {other : α × γ → List δ}
    {xs : List α} {ys : List β} (same : List.Forall₂ (fun x y => one y = other (x, make y)) xs ys) :
    ys.flatMap one = (xs.zip (ys.map make)).flatMap other := by
  induction same with
  | nil => rfl
  | cons first _ ih =>
      rw [List.flatMap_cons, first, ih, List.map_cons, List.zip_cons_cons, List.flatMap_cons]

/-- The notes about a method that is written by this module. -/
noncomputable def MethodModule.notes (interface : Ident) (m : Method) (x : MethodModule) :
    List Note :=
  x.ignored.map fun i => ⟨interface.text, m.signature.name.text, i.name⟩

/-- **The notes name the parameters that the messages do not depend on**: method by method and
in the order of the parameters, each of them once. -/
theorem notes_name_ignored {t : TraitDecl} {cx : Context} {e : Expansion}
    (accepted : expand t cx = .ok e) (distinct : ∀ m ∈ t.methods, m.signature.Distinct) :
    List.Forall₂ MethodModule.Of t.methods e.companion.modules ∧
      e.notes = (t.methods.zip e.companion.modules).flatMap fun (m, x) => x.notes t.name m := by
  have modules : List.Forall₂ MethodModule.Of t.methods
      ((t.describe cx).1.methods.map LogMethod.module) :=
    forall_of_expand accepted fun _ _ _ _ _ logging => module_of_bind logging.signature
  have each : List.Forall₂ (fun (m : Method) (l : LogMethod) => m.signature.Distinct →
      (l.unreferenced.map fun p => (⟨t.name.text, l.name.text, p.field⟩ : Note))
        = l.module.notes t.name m) t.methods ((t.describe cx).1.methods.map id) :=
    forall_of_expand accepted fun m _ args segments carries logging distinct => by
      rw [id_eq, MethodModule.notes, ← unreferenced_bind carries logging distinct, List.map_map]
      rfl
  rw [List.map_id] at each
  rw [notes_of_expand accepted, (methods_of_expand accepted).1]
  exact ⟨modules, flatMap_eq_zip (((List.forall₂_and_left _ _).mpr ⟨distinct, each⟩).imp
    fun _ _ ⟨distinct, notes⟩ => notes distinct)⟩

namespace Sample

/-- An interface whose first method writes one of its two parameters, and whose second method
writes none. -/
def reserved : TraitDecl :=
  { interface with
    items :=
      [.method (method "opened" (message "1" "\x7bhost\x7d is open")
        [parameter "port" "Port", parameter "r#host" "Host"]),
       .method (method "closed" (message "2" "closed") [parameter "host" "Host"])] }

theorem reserved_accepted : ∃ e, expand reserved context = .ok e :=
  exists_ok_of_isOk (by decide +kernel)

end Sample

theorem notes_name_ignored_reserved :
    ∃ e, expand Sample.reserved Sample.context = .ok e ∧
      (∀ m ∈ Sample.reserved.methods, m.signature.Distinct) ∧
      e.notes = (Sample.reserved.methods.zip e.companion.modules).flatMap
        fun (m, x) => x.notes Sample.reserved.name m := by
  obtain ⟨e, accepted⟩ := Sample.reserved_accepted
  have distinct : ∀ m ∈ Sample.reserved.methods, m.signature.Distinct := by decide
  exact ⟨e, accepted, distinct, (notes_name_ignored accepted distinct).2⟩

example : (expand Sample.reserved Sample.context).toOption.map Expansion.notes
    = some [⟨"IServer", "opened", "port"⟩, ⟨"IServer", "closed", "host"⟩] := by
  decide +kernel

end LogInterface
