/-
# Proofs.Interface.Once -- what is reported once

Two rules have one violation for several places of an interface: the rule for event ids has one
for all methods with the same id, and the rule for placeholders has one for all placeholders of
a message with the same unknown name.

Each has a relation that says what its violation tells (`Violation.TellsDuplicate`,
`Violation.TellsUnknown`), and a theorem that says for which ids and names there is one, in which
order, and where in the report (`duplicates_reported`, `unknown_reported`).  An order of first
appearance is told by the index of each in the list of all (`List.idxOf`): with the ids or names
that are reported, it leaves no choice.
-/
import LogInterface.Proofs.Interface.Pointing

namespace LogInterface

open LogInterface.Text

set_option autoImplicit false

/-! ## Parts of a report -/

/-- On these topics there is one kind of violation each. -/
theorem topic_of_one_kind (v : Violation) :
    (v.topic = .number ↔ v.kind = .duplicateEventId) ∧
      (v.topic = .placeholder ↔ v.kind = .unknownPlaceholder) := by
  unfold Violation.topic
  cases v.kind with
  | invalidAttribute => cases v.method.isSome <;> simp
  | invalidInterfaceShape => simp only []; split <;> simp
  | invalidMethodShape => simp only []; split <;> simp
  | _ => simp

/-- What the rules say about placeholders, method by method. -/
theorem validate_unknown (d : Interface) :
    d.validate.ofKind .unknownPlaceholder
      = d.methods.flatMap fun l =>
          (l.unknownHoles.map l.unknownViolation).map (Violation.of d.name) := by
  have ofKind (r : Report) : r.ofKind .unknownPlaceholder = r.on .placeholder := by
    refine List.filter_congr fun v _ => ?_
    rw [decide_eq_decide, (topic_of_one_kind v).2]
  have shape : d.shapeViolations.on .placeholder = [] := by
    refine List.filter_eq_nil_iff.mpr fun v member => ?_
    rcases topic_of_mem_shapeViolations member with topic | topic <;> simp [topic]
  have number : Report.on ((declaredIds [] d.methods).flatMap (duplicateViolations d.methods))
      .placeholder = [] :=
    (Report.isOn_flatMap (duplicateViolations_topic d.methods)).on
  have method (l : LogMethod) (into : Ident) :
      (l.violations into).on .placeholder = l.unknownHoles.map l.unknownViolation := by
    simp [LogMethod.violations, Report.on_append, (signatureViolations_topic _ _ _ _).on,
      (unknownViolations_topic l).on]
  show Report.ofKind (List.map (Violation.of d.name) _) _ = _
  rw [ofKind, Report.on_of, Report.on_append, Report.on_append, Report.on_flatMap, shape, number,
    List.nil_append, List.append_nil, List.map_flatMap]
  simp only [method]

/-! ## Event ids -/

/-- The event ids of the methods, in the order of their declaration. -/
def Interface.ids (d : Interface) : List Int := d.methods.map (·.event.value)

/-- The violation says which methods declare an id, all of them in their order, and points at the
second one. -/
structure Violation.TellsDuplicate (v : Violation) (d : Interface) (id : Int) : Prop where
  kind : v.kind = .duplicateEventId
  interface : v.interface = d.name.text
  /-- The second method that declares the id is where it went wrong. -/
  second : ∃ first second rest, d.methods.filter (·.event.value = id) = first :: second :: rest ∧
    v.method = some second.name.text ∧ v.place = second.event.place
  names : ∃ names last,
    (d.methods.filter (·.event.value = id)).map (·.name.text) = names ++ [last] ∧
    v.subject = some (", ".intercalate (names ++ [last])) ∧
    v.message = "event id " ++ Int.repr id ++ " is declared by "
      ++ (", ".intercalate (names.map quoted) ++ " and " ++ quoted last)

theorem nameList_append {names : List String} (several : names ≠ []) (last : String) :
    nameList (names ++ [last])
      = ", ".intercalate (names.map quoted) ++ " and " ++ quoted last := by
  obtain ⟨before, next, rfl⟩ := (List.eq_nil_or_concat' names).resolve_left several
  simp [nameList]

/-- An id that several methods declare is one violation. -/
theorem duplicateViolations_several {d : Interface} {id : Int} (several : 2 ≤ d.ids.count id) :
    ∃ v, duplicateViolations d.methods id = [v] ∧ (v.of d.name).TellsDuplicate d id := by
  have found : duplicateViolations d.methods id ≠ [] := by
    intro silent
    have single := duplicateViolations_eq_nil.mp silent
    exact absurd (several.trans single) (by decide)
  unfold duplicateViolations at found ⊢
  match declaring : d.methods.filter (·.event.value = id) with
  | [] => simp [declaring] at found
  | [_] => simp [declaring] at found
  | first :: second :: rest =>
      obtain ⟨names, last, split⟩ : ∃ names last,
          (second :: rest).map (·.name.text) = names ++ [last] :=
        (List.eq_nil_or_concat' _).resolve_left (by simp)
      have all : (first :: second :: rest).map (·.name.text)
          = (first.name.text :: names) ++ [last] := by
        rw [List.map_cons, split, List.cons_append]
      simp only [declaring]
      refine ⟨_, rfl, ?_⟩
      refine ⟨rfl, rfl, ⟨first, second, rest, declaring, rfl, rfl⟩,
        first.name.text :: names, last, declaring ▸ all, ?subject, ?message⟩
      case subject => exact congrArg (fun all => some (", ".intercalate all)) all
      case message =>
        show "event id " ++ Int.repr id ++ " is declared by " ++ nameList _ = _
        rw [all, nameList_append (List.cons_ne_nil _ _)]

/-- Where some elements have one answer and the others none, the answers are those of the former
in their order. -/
theorem forall₂_filter_flatMap {α β : Type} {answers : α → List β} {has : α → Bool}
    {related : α → β → Prop} {xs : List α}
    (one : ∀ x, has x = true → ∃ y, answers x = [y] ∧ related x y)
    (none : ∀ x, has x = false → answers x = []) :
    List.Forall₂ related (xs.filter has) (xs.flatMap answers) := by
  induction xs with
  | nil => exact .nil
  | cons x xs ih =>
      cases holds : has x with
      | true =>
          obtain ⟨y, answer, fits⟩ := one x holds
          rw [List.filter_cons_of_pos holds, List.flatMap_cons, answer]
          exact .cons fits ih
      | false =>
          rw [List.filter_cons_of_neg (by simp [holds]), List.flatMap_cons, none x holds]
          exact ih

theorem declaredIds_ordered (ms : List LogMethod) :
    (declaredIds [] ms).Pairwise fun a b =>
      (ms.map (·.event.value)).idxOf a < (ms.map (·.event.value)).idxOf b := by
  rw [declaredIds_eq, List.pairwise_map]
  exact firsts_ordered

/-- **An event id that several methods declare is reported once**: the report of an interface ends
with one violation for each such id, in the order in which the ids are first declared, and has
none of this kind before. -/
theorem duplicates_reported (d : Interface) :
    ∃ (front : Report) (ids : List Int) (reports : Report), d.validate = front ++ reports ∧
      (∀ v ∈ front, v.kind ≠ .duplicateEventId) ∧
      (∀ id, id ∈ ids ↔ 2 ≤ d.ids.count id) ∧
      ids.Pairwise (fun a b => d.ids.idxOf a < d.ids.idxOf b) ∧
      List.Forall₂ (fun id v => v.TellsDuplicate d id) ids reports := by
  let into := Naming.intoCompanion d.companion
  let several (id : Int) : Bool := 2 ≤ d.ids.count id
  refine ⟨(d.shapeViolations ++ d.methods.flatMap (·.violations into)).map (.of d.name),
    (declaredIds [] d.methods).filter several,
    ((declaredIds [] d.methods).flatMap (duplicateViolations d.methods)).map (.of d.name),
    List.map_append, ?others, ?ids, (declaredIds_ordered d.methods).filter _, ?reports⟩
  case others =>
    rw [List.forall_mem_map]
    intro v member kind
    have topic := (topic_of_one_kind v).1.mpr (show v.kind = _ from kind)
    rcases List.mem_append.mp member with shape | method
    · rcases topic_of_mem_shapeViolations shape with other | other <;> cases topic.symm.trans other
    · obtain ⟨l, -, violation⟩ := List.mem_flatMap.mp method
      rcases topic_of_mem_violations violation with other | other <;> cases topic.symm.trans other
  case ids =>
    intro id
    rw [List.mem_filter, mem_declaredIds, decide_eq_true_iff]
    refine ⟨And.right, fun twice => ⟨⟨List.not_mem_nil, ?_⟩, twice⟩⟩
    exact List.count_pos_iff.mp (Nat.zero_lt_of_lt twice)
  case reports =>
    rw [List.map_flatMap]
    refine forall₂_filter_flatMap (fun id twice => ?_) fun id single => ?_
    · obtain ⟨v, only, tells⟩ := duplicateViolations_several (of_decide_eq_true twice)
      exact ⟨v.of d.name, by rw [only]; rfl, tells⟩
    · have once : d.ids.count id ≤ 1 :=
        Nat.le_of_lt_succ (Nat.lt_of_not_le (of_decide_eq_false single))
      rw [duplicateViolations_eq_nil.mpr once]
      rfl

/-! ## Placeholders -/

/-- The violation is about the placeholders of a method with one name: it says which name it is
and shows the first of them. -/
structure Violation.TellsUnknown (v : Violation) (d : Interface) (l : LogMethod) (name : String) :
    Prop where
  kind : v.kind = .unknownPlaceholder
  interface : v.interface = d.name.text
  method : v.method = some l.name.text
  subject : v.subject = some name
  place : v.place = l.message.place
  message : v.message = "placeholder " ++ holeText name ++ " in the message of "
    ++ l.name.quoted ++ " does not match any parameter"
  /-- The detail is made for the brace that opens the first placeholder of the name. -/
  shown : ∃ before after, Template.FirstHole l.message.value name before after ∧
    v.detail = some ({ ErrorReport.atOffset "unknown placeholder" l.message.value
      (byteLength before) with caption := "no parameter named " ++ quoted name } :
        ErrorReport).excerpt

/-- What comes first among some elements of a list comes first among all. -/
theorem idxOf_lt_of_filter {α : Type} [DecidableEq α] {p : α → Bool} {a b : α} (isA : p a = true)
    (isB : p b = true) {xs : List α} (before : (xs.filter p).idxOf a < (xs.filter p).idxOf b) :
    xs.idxOf a < xs.idxOf b := by
  induction xs with
  | nil => exact before
  | cons x xs ih =>
      by_cases first : x = a
      · subst first
        have other : x ≠ b := by
          rintro rfl
          exact Nat.lt_irrefl _ before
        rw [List.idxOf_cons_self, List.idxOf_cons_ne _ other]
        exact Nat.succ_pos _
      · by_cases second : x = b
        · subst second
          rw [List.filter_cons_of_pos isB, List.idxOf_cons_self] at before
          exact absurd before (Nat.not_lt_zero _)
        · rw [List.idxOf_cons_ne _ first, List.idxOf_cons_ne _ second]
          refine Nat.succ_lt_succ (ih ?_)
          by_cases kept : p x = true
          · rw [List.filter_cons_of_pos kept, List.idxOf_cons_ne _ first,
              List.idxOf_cons_ne _ second] at before
            exact Nat.lt_of_succ_lt_succ before
          · rwa [List.filter_cons_of_neg kept] at before

section Described

variable {m : Method} {args : MessageArguments} {segments : List Segment}

/-- The names among which a log method looks for unknown ones. -/
theorem unboundHoles_names :
    (((LogMethod.bind m args segments).holes.filter fun hole =>
        (bindName (LogMethod.bind m args segments).parameters hole.1).isNone).map Prod.fst)
      = (Template.names segments).filter fun name =>
        (bindName (LogMethod.bind m args segments).parameters name).isNone := by
  rw [show Template.names segments = Template.names (LogMethod.bind m args segments).segments
    from rfl, ← holes_names, List.filter_map]
  rfl

theorem mem_unknownNames {name : String} :
    name ∈ (LogMethod.bind m args segments).unknownHoles.map Prod.fst ↔
      name ∈ Template.names segments
        ∧ ∀ p ∈ (LogMethod.bind m args segments).parameters, p.field ≠ name := by
  rw [LogMethod.unknownHoles, unboundHoles rfl, firstOfName_eq, mem_map_firsts,
    unboundHoles_names, List.mem_filter, Option.isNone_iff_eq_none, bindName,
    List.findIdx?_eq_none_iff]
  simp

theorem unknownNames_ordered :
    ((LogMethod.bind m args segments).unknownHoles.map Prod.fst).Pairwise fun a b =>
      (Template.names segments).idxOf a < (Template.names segments).idxOf b := by
  rw [LogMethod.unknownHoles, unboundHoles rfl, firstOfName_eq, List.pairwise_map]
  refine firsts_ordered.imp_of_mem fun {x y} memberX memberY before => ?_
  rw [unboundHoles_names] at before
  have unboundX := List.mem_filter.mp (List.mem_of_find?_eq_some (mem_firsts.mp memberX).2)
  have unboundY := List.mem_filter.mp (List.mem_of_find?_eq_some (mem_firsts.mp memberY).2)
  exact idxOf_lt_of_filter (p := fun name => (bindName _ name).isNone) unboundX.2 unboundY.2 before

theorem unknownViolation_tells {d : Interface} {hole : String × Nat}
    (parsed : Template.parse args.message.value = .ok segments)
    (member : hole ∈ (LogMethod.bind m args segments).unknownHoles) :
    (((LogMethod.bind m args segments).unknownViolation hole).of d.name).TellsUnknown d
      (LogMethod.bind m args segments) hole.1 := by
  obtain ⟨before, after, first, offset⟩ := Template.firstHole_of_find? parsed
    (LogMethod.find?_of_mem_unknownHoles member)
  exact ⟨rfl, rfl, rfl, rfl, rfl, rfl, before, after, first, offset ▸ rfl⟩

end Described

/-- **An unknown placeholder is reported once for its name**: in the description of a trait, every
method has one violation for each name in its template that none of its parameters has, in the
order in which the names come up, and there are no others of this kind. -/
theorem unknown_reported (t : TraitDecl) (cx : Context) :
    let d := (t.describe cx).1
    ∃ reports : List Report, d.validate.ofKind .unknownPlaceholder = reports.flatten ∧
      List.Forall₂ (fun l r => ∃ unknown : List String,
          (∀ name, name ∈ unknown ↔ name ∈ Template.holes l.message.value
            ∧ ∀ p ∈ l.parameters, p.field ≠ name) ∧
          unknown.Pairwise (fun a b =>
            (Template.holes l.message.value).idxOf a < (Template.holes l.message.value).idxOf b) ∧
          List.Forall₂ (fun name v => v.TellsUnknown d l name) unknown r)
        d.methods reports := by
  intro d
  refine ⟨d.methods.map fun l =>
    (l.unknownHoles.map l.unknownViolation).map (Violation.of d.name), ?_, ?_⟩
  · rw [validate_unknown, List.flatMap_def]
  · rw [List.forall₂_map_right_iff, List.forall₂_same]
    intro l isMethod
    obtain ⟨m, -, described⟩ := exists_of_mem_describeItems isMethod
    obtain ⟨args, segments, carries, rfl⟩ := describe_ok_iff.mp described
    have names : Template.holes args.message.value = Template.names segments :=
      (Template.names_of_parse carries.parsed).symm
    refine ⟨(LogMethod.bind m args segments).unknownHoles.map Prod.fst, ?_, ?_, ?_⟩
    · intro name
      show _ ↔ name ∈ Template.holes args.message.value ∧ _
      rw [names, mem_unknownNames]
    · show List.Pairwise (fun a b => (Template.holes args.message.value).idxOf a
        < (Template.holes args.message.value).idxOf b) _
      rw [names]
      exact unknownNames_ordered
    · rw [List.map_map, List.forall₂_map_left_iff, List.forall₂_map_right_iff, List.forall₂_same]
      exact fun hole member => unknownViolation_tells carries.parsed member

end LogInterface
