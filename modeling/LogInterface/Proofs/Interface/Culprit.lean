/-
# Proofs.Interface.Culprit -- every violation names its culprit

The violations of a report are put together in many places, wherever a rule is broken, and each
place has to say for itself what its violation is about.  They do it alike.  The kind of a
violation follows from its topic (`kind_mem_kinds`), and the topics of all rules are known, so what
is left is the method: the rules for a trait name none (`shapeViolations_ofShape`), the rules for a
method name that method (`violations_name`), and the rule for event ids one of those that declare
the id (`duplicateViolations_names`).

Put together stage by stage, every violation of a rejected trait names the trait, and the method if
it is about one (`violations_name_culprit`).
-/
import LogInterface.Proofs.Interface.Report

namespace LogInterface

set_option autoImplicit false

/-! ## Kinds -/

def Topic.kinds : Topic → List ViolationKind
  | .source => [.invalidSource]
  | .trigger => [.invalidAttribute]
  | .shape => [.invalidInterfaceShape]
  | .nesting => [.invalidInterfaceShape]
  | .message => [.invalidMethodShape, .invalidAttribute, .syntaxError]
  | .signature => [.invalidMethodShape]
  | .placeholder => [.unknownPlaceholder]
  | .number => [.duplicateEventId]

theorem kind_mem_kinds (v : Violation) : v.kind ∈ v.topic.kinds := by
  unfold Violation.topic
  cases kind : v.kind with
  | invalidAttribute => cases v.method.isSome <;> simp [Topic.kinds]
  | invalidInterfaceShape => simp only []; split <;> simp [Topic.kinds]
  | invalidMethodShape => simp only []; split <;> simp [Topic.kinds]
  | _ => simp [Topic.kinds]

/-- The violations of a topic with one kind are of that kind. -/
theorem kind_of_topic {v : Violation} {topic : Topic} {kind : ViolationKind}
    (is : v.topic = topic) (single : topic.kinds = [kind]) : v.kind = kind := by
  have member := kind_mem_kinds v
  rw [is, single] at member
  exact List.mem_singleton.mp member

/-- The annotation of a trait belongs to no method. -/
theorem unnamed_of_trigger {v : Violation} (trigger : v.topic = .trigger) : v.method = none := by
  have kind : v.kind = .invalidAttribute := kind_of_topic trigger rfl
  cases method : v.method with
  | none => rfl
  | some name =>
      rw [Violation.topic, kind, method] at trigger
      cases trigger

/-! ## The trait -/

/-- A violation of the rule that no generated type is named like the trait. -/
def Violation.IsCollision (v : Violation) : Prop :=
  v.kind = .invalidInterfaceShape ∧ "generated type name ".toList <+: v.message.toList

/-- A violation of the rules for the trait itself.  It is about no method, and is a collision only
where names collide. -/
structure Violation.OfShape (v : Violation) (d : Interface) : Prop where
  kind : v.kind = .invalidInterfaceShape
  method : v.method = none
  collision : v.IsCollision → d.collides = true

/-- All rules but one open with other words. -/
theorem Violation.OfShape.of_opening {v : Violation} {d : Interface}
    (kind : v.kind = .invalidInterfaceShape) (method : v.method = none)
    (message : v.message.toList.head? ≠ some 'g') : v.OfShape d := by
  refine ⟨kind, method, fun collision => ?_⟩
  obtain ⟨rest, same⟩ := collision.2
  exact absurd (same ▸ rfl) message

theorem shapeViolations_ofShape (d : Interface) : ∀ v ∈ d.shapeViolations, v.OfShape d := by
  simp only [Interface.shapeViolations, List.forall_mem_append]
  refine ⟨⟨⟨⟨⟨⟨⟨?generics, ?clause⟩, ?nesting⟩, ?triggers⟩, ?supertraits⟩, ?qualifiers⟩,
    ?foreign⟩, ?collision⟩
  case generics =>
    split
    · exact List.forall_mem_nil _
    · exact List.forall_mem_singleton.mpr (.of_opening rfl rfl (by simp [shapeViolation]))
  case clause =>
    split
    · exact List.forall_mem_nil _
    · exact List.forall_mem_singleton.mpr (.of_opening rfl rfl (by simp [shapeViolation]))
  case nesting => exact forall_mem_violationIf (.of_opening rfl rfl (by simp [shapeViolation]))
  case triggers => exact forall_mem_violationIf (.of_opening rfl rfl (by simp [shapeViolation]))
  case supertraits =>
    exact List.forall_mem_map.mpr fun _ _ => .of_opening rfl rfl (by simp [shapeViolation])
  case qualifiers =>
    exact List.forall_mem_map.mpr fun _ _ => .of_opening rfl rfl (by simp [shapeViolation])
  case foreign =>
    exact List.forall_mem_map.mpr fun _ _ => .of_opening rfl rfl (by simp [shapeViolation])
  case collision =>
    cases collides : d.collides with
    | true => exact List.forall_mem_singleton.mpr ⟨rfl, rfl, fun _ => collides⟩
    | false => exact List.forall_mem_nil _

/-! ## Methods -/

/-- The rules for a method name it. -/
theorem violations_name (l : LogMethod) (into : Ident) :
    ∀ v ∈ l.violations into, v.method = some l.name.text := by
  refine List.forall_mem_append.mpr ⟨fun v member => ?_, List.forall_mem_map.mpr fun _ _ => rfl⟩
  exact (signatureViolations_ofSignature _ _ _ _ v member).method

theorem kind_of_mem_violations {l : LogMethod} {into : Ident} {v : Violation}
    (member : v ∈ l.violations into) :
    v.kind = .invalidMethodShape ∨ v.kind = .unknownPlaceholder := by
  rcases topic_of_mem_violations member with signature | placeholder
  · exact .inl (kind_of_topic signature rfl)
  · exact .inr (kind_of_topic placeholder rfl)

theorem kind_of_mem_duplicateViolations {methods : List LogMethod} {id : Int} {v : Violation}
    (member : v ∈ duplicateViolations methods id) : v.kind = .duplicateEventId :=
  kind_of_topic (duplicateViolations_topic methods id v member) rfl

/-- The rule for event ids names a method that declares the id. -/
theorem duplicateViolations_names {methods : List LogMethod} {id : Int} {v : Violation}
    (member : v ∈ duplicateViolations methods id) :
    ∃ l ∈ methods, v.method = some l.name.text ∧ v.subject.isSome := by
  simp only [duplicateViolations] at member
  split at member
  · rename_i first second rest declaring
    cases List.mem_singleton.mp member
    have declares : second ∈ methods.filter (·.event.value = id) := by
      rw [declaring]
      exact .tail _ List.mem_cons_self
    exact ⟨second, List.mem_of_mem_filter declares, rfl, rfl⟩
  · cases member

/-- An unknown placeholder is the subject of its violation. -/
theorem subject_of_mem_violations {l : LogMethod} {into : Ident} {v : Violation}
    (member : v ∈ l.violations into) (kind : v.kind = .unknownPlaceholder) : v.subject.isSome := by
  rcases List.mem_append.mp member with signature | unknown
  · have topic := signatureViolations_topic _ _ _ _ v signature
    cases kind.symm.trans (kind_of_topic topic rfl)
  · obtain ⟨hole, -, rfl⟩ := List.mem_map.mp unknown
    rfl

/-! ## Whole reports -/

/-- A violation says which trait it is about, and which method if it is about one. -/
structure Violation.NamesCulprit (v : Violation) (t : TraitDecl) : Prop where
  interface : v.interface = t.name.text
  /-- What is wrong with a method names a method of the trait. -/
  method : v.kind ∈ [.invalidMethodShape, .syntaxError, .duplicateEventId, .unknownPlaceholder] →
    ∃ m ∈ t.methods, v.method = some m.signature.name.text
  /-- What is wrong with the trait itself names none. -/
  shape : v.kind = .invalidInterfaceShape → v.method = none
  parsed : v.kind ≠ .invalidSource
  subject : v.kind ∈ [.unknownPlaceholder, .duplicateEventId] → v.subject.isSome

section Stages

variable {t : TraitDecl} {v : Violation}

/-- A violation of the trait itself. -/
theorem namesCulprit_of_trait (kind : v.kind = .invalidAttribute ∨ v.kind = .invalidInterfaceShape)
    (none : v.method = none) : (v.of t.name).NamesCulprit t := by
  have kind : (v.of t.name).kind = .invalidAttribute
      ∨ (v.of t.name).kind = .invalidInterfaceShape := kind
  refine ⟨rfl, fun member => ?_, fun _ => none, fun source => ?_, fun member => ?_⟩
  · rcases kind with same | same <;> simp [same] at member
  · rcases kind with same | same <;> cases same.symm.trans source
  · rcases kind with same | same <;> simp [same] at member

/-- A violation of a method of the trait. -/
theorem namesCulprit_of_method {m : Method} (declared : m ∈ t.methods)
    (names : v.method = some m.signature.name.text)
    (kind : v.kind ≠ .invalidSource ∧ v.kind ≠ .invalidInterfaceShape)
    (subject : v.kind ∈ [.unknownPlaceholder, .duplicateEventId] → v.subject.isSome) :
    (v.of t.name).NamesCulprit t :=
  ⟨rfl, fun _ => ⟨m, declared, names⟩, fun shape => absurd shape kind.2, kind.1, subject⟩

theorem namesCulprit_of_left {m : Method} (declared : m ∈ t.methods)
    (left : m.describe = .error v) : (v.of t.name).NamesCulprit t := by
  have kinds := kind_mem_kinds v
  obtain ⟨topic, names⟩ := describe_left left
  rw [topic] at kinds
  refine namesCulprit_of_method declared names ?_ fun member => ?_
  · constructor <;> intro same <;> simp [same, Topic.kinds] at kinds
  · simp only [List.mem_cons, List.not_mem_nil, or_false] at member
    rcases member with same | same <;> simp [same, Topic.kinds] at kinds

theorem namesCulprit_of_rule {m : Method} {l : LogMethod} {into : Ident} (declared : m ∈ t.methods)
    (described : m.describe = .ok l) (broken : v ∈ l.violations into) :
    (v.of t.name).NamesCulprit t := by
  obtain ⟨args, segments, -, rfl⟩ := describe_ok_iff.mp described
  have kind := kind_of_mem_violations broken
  refine namesCulprit_of_method declared (violations_name _ into v broken) ?_ fun member => ?_
  · rcases kind with same | same <;> simp [same]
  · rcases kind with same | same
    · simp [same] at member
    · exact subject_of_mem_violations broken same

theorem namesCulprit_of_number {id : Int}
    (twice : v ∈ duplicateViolations (describeItems t.items).methods id) :
    (v.of t.name).NamesCulprit t := by
  obtain ⟨l, isMethod, names, subject⟩ := duplicateViolations_names twice
  obtain ⟨m, declared, described⟩ := exists_of_mem_describeItems isMethod
  obtain ⟨args, segments, -, rfl⟩ := describe_ok_iff.mp described
  have kind := kind_of_mem_duplicateViolations twice
  exact namesCulprit_of_method declared names (by simp [kind]) fun _ => subject

end Stages

/-- **Every violation names its culprit.** -/
theorem violations_name_culprit {t : TraitDecl} {cx : Context} {r : Report}
    (rejected : expand t cx = .error r) : ∀ v ∈ r, v.NamesCulprit t := by
  intro v member
  rw [report_of_expand rejected, report_stages] at member
  obtain ⟨u, stages, rfl⟩ := List.mem_map.mp member
  rcases List.mem_append.mp stages with built | found
  · rcases List.mem_append.mp built with annotation | left
    · have topic : u.topic = .trigger := by
        rcases List.mem_append.mp annotation with arguments | name
        · exact extensionArguments_topic cx u arguments
        · exact companionOf_topic _ _ u name
      exact namesCulprit_of_trait (.inl (kind_of_topic topic rfl)) (unnamed_of_trigger topic)
    · obtain ⟨m, declared, left⟩ := exists_of_mem_violations left
      exact namesCulprit_of_left declared left
  · rcases List.mem_append.mp found with rules | numbers
    · rcases List.mem_append.mp rules with shape | methods
      · obtain ⟨kind, unnamed, -⟩ := shapeViolations_ofShape _ u shape
        exact namesCulprit_of_trait (.inr kind) unnamed
      · obtain ⟨l, isMethod, broken⟩ := List.mem_flatMap.mp methods
        obtain ⟨m, declared, described⟩ := exists_of_mem_describeItems isMethod
        exact namesCulprit_of_rule declared described broken
    · obtain ⟨id, -, twice⟩ := List.mem_flatMap.mp numbers
      exact namesCulprit_of_number twice

namespace Sample

/-- A trait in a module, with a method that is generic and has an unknown placeholder, one with the
same event id, one with a template that is not closed and one without a message. -/
def broken : TraitDecl :=
  let parameter : GenericParam := ⟨.type, .node .typeParam [.token (.word "T")]⟩
  let first := method "started" (message "1" "\x7bport\x7d") []
  { interface with
    items :=
      [.method { first with
        signature := { first.signature with generics := ⟨[parameter], false⟩ } },
       .method (method "stopped" (message "1" "") []),
       .method (method "paused" (message "2" "\x7bport") []),
       .method { method "resumed" (message "3" "") [] with attributes := [] }] }

end Sample

theorem violations_name_culprit_sample :
    ∃ r, expand Sample.broken { Sample.context with nested := true } = .error r ∧
      r.map (·.kind) = [.syntaxError, .invalidMethodShape, .invalidInterfaceShape,
        .invalidMethodShape, .unknownPlaceholder, .duplicateEventId] ∧
      ∀ v ∈ r, v.NamesCulprit Sample.broken := by
  have kinds : (violationsOf (expand Sample.broken { Sample.context with nested := true })).map
      (·.kind) = [.syntaxError, .invalidMethodShape, .invalidInterfaceShape, .invalidMethodShape,
        .unknownPlaceholder, .duplicateEventId] := by decide +kernel
  cases rejected : expand Sample.broken { Sample.context with nested := true } with
  | ok e =>
      rw [rejected] at kinds
      cases kinds
  | error r =>
      rw [rejected] at kinds
      exact ⟨r, rfl, kinds, violations_name_culprit rejected⟩

end LogInterface
