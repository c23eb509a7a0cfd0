/-
# Proofs.Interface.Report -- what the violations of a report are about

The answer to a trait is one list of violations from two stages: those of the
description, then those of the rules.  `Violation.topic` tells from a violation
alone what it is about, and each rule has a lemma that says which topic its
violations have (`Report.IsOn`); those of a signature name their method besides
(`Violation.OfSignature`).  So the part of a report on one topic (`Report.on`) can
be read off: for signatures it is `report_signatures`, for the place of the trait
`report_nesting`.

A signature is judged only if its method was described, and a method that carries
no message is left out of the description.  So it adds to the report the one
violation that says so, and nothing about its own signature (`answer_unreadable`).
Nothing else hides what is wrong with a signature: `signatures_reported`.
-/
import LogInterface.Proofs.Interface.Acceptance

namespace LogInterface

set_option autoImplicit false

/-! ## Topics -/

/-- What a violation is about. -/
inductive Topic where
  | source
  /-- The annotation of a trait. -/
  | trigger
  /-- The trait itself. -/
  | shape
  /-- The place of the trait inside another item. -/
  | nesting
  /-- The message of a method. -/
  | message
  /-- The signature of a method. -/
  | signature
  | placeholder
  | number
  deriving DecidableEq, Repr

/-- The topic of a violation.  The message and the signature of a method share a
kind, and so do its message and the annotation of its trait. -/
def Violation.topic (v : Violation) : Topic :=
  match v.kind with
  | .invalidSource => .source
  | .syntaxError => .message
  | .invalidAttribute => if v.method.isSome then .message else .trigger
  | .invalidInterfaceShape =>
      if v.help = some "declare the trait at the top level of the file" then .nesting else .shape
  | .invalidMethodShape =>
      if "method ".toList.isPrefixOf v.message.toList then .message else .signature
  | .duplicateEventId => .number
  | .unknownPlaceholder => .placeholder

def Violation.of (interface : Ident) (v : Violation) : Violation :=
  { v with interface := interface.text }

/-- What a rule finds under a condition. -/
theorem forall_mem_violationIf {holds : Violation → Prop} {condition : Bool} {v : Violation}
    (found : holds v) : ∀ u ∈ violationIf condition v, holds u := by
  cases condition with
  | false => exact List.forall_mem_nil _
  | true => exact List.forall_mem_singleton.mpr found

namespace Report

/-- The violations on one topic, in their order. -/
def on (r : Report) (topic : Topic) : Report := r.filter (·.topic = topic)

def IsOn (r : Report) (topic : Topic) : Prop := ∀ v ∈ r, v.topic = topic

variable {r r' : Report} {topic other : Topic}

theorem on_append : (r ++ r').on topic = r.on topic ++ r'.on topic := List.filter_append r r'

theorem on_flatMap {α : Type} {xs : List α} {f : α → Report} :
    Report.on (xs.flatMap f) topic = xs.flatMap fun x => (f x).on topic :=
  List.filter_flatMap

theorem on_of {interface : Ident} :
    Report.on (r.map (Violation.of interface)) topic
      = (r.on topic).map (Violation.of interface) :=
  List.filter_map

/-- A report on one topic is all or nothing of what is asked for. -/
theorem IsOn.on (all : r.IsOn other) : r.on topic = if other = topic then r else [] := by
  split
  · rename_i same
    exact List.filter_eq_self.mpr fun v member => decide_eq_true ((all v member).trans same)
  · rename_i differ
    exact List.filter_eq_nil_iff.mpr fun v member =>
      mt of_decide_eq_true ((all v member).symm ▸ differ)

theorem isOn_nil : Report.IsOn [] topic := fun _ member => nomatch member

theorem isOn_append : Report.IsOn (r ++ r') topic ↔ r.IsOn topic ∧ r'.IsOn topic :=
  List.forall_mem_append

theorem isOn_single {v : Violation} : Report.IsOn [v] topic ↔ v.topic = topic :=
  List.forall_mem_singleton

theorem isOn_map {α : Type} {xs : List α} {f : α → Violation} (each : ∀ x, (f x).topic = topic) :
    Report.IsOn (xs.map f) topic := by
  intro v member
  obtain ⟨x, -, rfl⟩ := List.mem_map.mp member
  exact each x

theorem isOn_flatMap {α : Type} {xs : List α} {f : α → Report} (each : ∀ x, (f x).IsOn topic) :
    Report.IsOn (xs.flatMap f) topic := by
  intro v member
  obtain ⟨x, -, member⟩ := List.mem_flatMap.mp member
  exact each x v member

theorem isOn_violationIf {condition : Bool} {v : Violation} (is : v.topic = topic) :
    Report.IsOn (violationIf condition v) topic :=
  forall_mem_violationIf is

end Report

/-! ## The description -/

theorem extensionArguments_topic (cx : Context) :
    Report.IsOn cx.extensionArguments.2 .trigger := by
  unfold Context.extensionArguments
  split
  · exact Report.isOn_nil
  · exact Report.isOn_single.mpr rfl

theorem companionOf_topic (interface : Ident) (asked : Option StringLiteral) :
    Report.IsOn (companionOf interface asked).2 .trigger := by
  unfold companionOf
  split
  · exact Report.isOn_nil
  · split
    · exact Report.isOn_nil
    · exact Report.isOn_single.mpr rfl

/-- A method is left out for its message, whatever its signature is, and is named. -/
theorem describe_left {m : Method} {v : Violation} (left : m.describe = .error v) :
    v.topic = .message ∧ v.method = some m.signature.name.text := by
  unfold Method.describe at left
  match messages : m.attributes.filter Attribute.isMessage with
  | [] =>
      simp only [messages] at left
      cases left
      exact ⟨by simp [Violation.topic, methodViolation], rfl⟩
  | _ :: second :: _ =>
      simp only [messages] at left
      cases left
      exact ⟨by simp [Violation.topic, methodViolation], rfl⟩
  | [a] =>
      simp only [messages, pure_bind] at left
      split at left
      · cases left
        exact ⟨rfl, rfl⟩
      · split at left
        · cases left
          exact ⟨rfl, rfl⟩
        · cases left

theorem describeItems_topic (items : List TraitItem) :
    Report.IsOn (describeItems items).violations .message := by
  fun_induction describeItems items with
  | case1 => exact Report.isOn_nil
  | case2 m items rest method _ ih => exact ih
  | case3 m items rest v left ih => exact List.forall_mem_cons.mpr ⟨(describe_left left).1, ih⟩
  | case4 t items rest ih => exact ih

/-! ## The rules for a trait -/

/-- The rule for the place of a trait. -/
def Interface.nestingViolations (d : Interface) : Report :=
  violationIf d.nested
    { shapeViolation d.name.place
        ("logging trait " ++ d.name.quoted ++ " must not be nested in another item") with
      help := some "declare the trait at the top level of the file" }

theorem nestingViolations_topic (d : Interface) : d.nestingViolations.IsOn .nesting :=
  Report.isOn_violationIf rfl

/-- All other rules for a trait are about its shape. -/
theorem shapeViolations_parts (d : Interface) :
    ∃ front back : Report, front.IsOn .shape ∧ back.IsOn .shape ∧
      d.shapeViolations = front ++ d.nestingViolations ++ back := by
  have around (a b c e f g h : Report) :
      a ++ b ++ d.nestingViolations ++ c ++ e ++ f ++ g ++ h
        = (a ++ b) ++ d.nestingViolations ++ (c ++ e ++ f ++ g ++ h) := by
    simp only [List.append_assoc]
  refine ⟨_, _, ?front, ?back, around ..⟩
  case front =>
    refine Report.isOn_append.mpr ⟨?_, ?_⟩
    · split
      · exact Report.isOn_nil
      · exact Report.isOn_single.mpr rfl
    · split
      · exact Report.isOn_nil
      · exact Report.isOn_single.mpr rfl
  case back =>
    simp only [Report.isOn_append]
    refine ⟨⟨⟨⟨?_, ?_⟩, ?_⟩, ?_⟩, ?_⟩
    · exact Report.isOn_violationIf rfl
    · exact Report.isOn_map fun _ => rfl
    · exact Report.isOn_map fun _ => rfl
    · exact Report.isOn_map fun _ => by simp [Violation.topic, shapeViolation]
    · exact Report.isOn_violationIf rfl

/-! ## The rules for methods -/

/-- A violation of the rules for the signature of this method. -/
structure Violation.OfSignature (v : Violation) (name : Ident) : Prop where
  topic : v.topic = .signature
  method : v.method = some name.text

/-- The rules for signatures say something about a log method or a parameter. -/
theorem Violation.OfSignature.of_shape {v : Violation} {name : Ident}
    (kind : v.kind = .invalidMethodShape) (method : v.method = some name.text)
    (message : v.message.toList.head? ≠ some 'm') : v.OfSignature name := by
  have differ : ¬"method ".toList.isPrefixOf v.message.toList := by
    intro starts
    obtain ⟨rest, same⟩ := List.isPrefixOf_iff_prefix.mp starts
    exact message (same ▸ rfl)
  refine ⟨?_, method⟩
  rw [Violation.topic, kind]
  exact if_neg differ

theorem headViolations_ofSignature (name : Ident) (s : Signature) :
    ∀ v ∈ headViolations name s, v.OfSignature name := by
  refine List.forall_mem_append.mpr ⟨List.forall_mem_append.mpr ⟨?generics, ?clause⟩, ?output⟩
  case generics =>
    split
    · exact List.forall_mem_nil _
    · exact List.forall_mem_singleton.mpr
        (.of_shape rfl rfl (by simp [methodShape, methodViolation]))
  case clause =>
    split
    · exact List.forall_mem_nil _
    · exact List.forall_mem_singleton.mpr
        (.of_shape rfl rfl (by simp [methodShape, methodViolation]))
  case output =>
    split
    · exact List.forall_mem_nil _
    · exact forall_mem_violationIf (.of_shape rfl rfl (by simp [methodShape, methodViolation]))

theorem receiverViolations_ofSignature (name : Ident) (s : Signature) :
    ∀ v ∈ receiverViolations name s, v.OfSignature name := by
  unfold receiverViolations
  split
  · exact List.forall_mem_singleton.mpr
      (.of_shape rfl rfl (by simp [methodShape, methodViolation]))
  · exact forall_mem_violationIf (.of_shape rfl rfl (by simp [methodShape, methodViolation]))

theorem qualifierViolations_ofSignature (name : Ident) (s : Signature) :
    ∀ v ∈ qualifierViolations name s, v.OfSignature name := by
  refine List.forall_mem_append.mpr ⟨List.forall_mem_map.mpr fun _ _ => ?_, ?_⟩
  · exact .of_shape rfl rfl (by simp [methodShape, methodViolation])
  · split
    · exact List.forall_mem_nil _
    · exact List.forall_mem_singleton.mpr
        (.of_shape rfl rfl (by simp [methodShape, methodViolation]))

theorem patternViolations_ofSignature (name : Ident) (pattern : Pattern) :
    ∀ v ∈ patternViolations name pattern, v.OfSignature name := by
  cases pattern with
  | name i =>
      exact forall_mem_violationIf (.of_shape rfl rfl (by simp [methodShape, methodViolation]))
  | other t =>
      exact List.forall_mem_singleton.mpr
        (.of_shape rfl rfl (by simp [methodShape, methodViolation]))

theorem typeViolations_ofSignature (name : Ident) (type : Tree) :
    ∀ v ∈ typeViolations name type, v.OfSignature name := by
  refine List.forall_mem_append.mpr ⟨?_, ?_⟩
  · split
    · exact List.forall_mem_nil _
    · exact List.forall_mem_singleton.mpr
        (.of_shape rfl rfl (by simp [methodShape, methodViolation]))
  · split
    · exact List.forall_mem_nil _
    · exact List.forall_mem_singleton.mpr
        (.of_shape rfl rfl (by simp [methodShape, methodViolation]))

theorem inputViolations_ofSignature (name : Ident) (i : Input) :
    ∀ v ∈ inputViolations name i, v.OfSignature name := by
  cases i with
  | receiver r => exact List.forall_mem_nil _
  | typed attributes pattern type =>
      exact List.forall_mem_append.mpr
        ⟨patternViolations_ofSignature name pattern, typeViolations_ofSignature name type⟩

/-- The rules for a signature name the method and speak of nothing else. -/
theorem signatureViolations_ofSignature (into name : Ident) (s : Signature) (body : Option Place) :
    ∀ v ∈ signatureViolations into name s body, v.OfSignature name := by
  simp only [signatureViolations, List.forall_mem_append]
  refine ⟨⟨⟨⟨⟨?name, headViolations_ofSignature name s⟩, receiverViolations_ofSignature name s⟩,
    qualifierViolations_ofSignature name s⟩, ?body⟩, ?inputs⟩
  case name =>
    exact forall_mem_violationIf (.of_shape rfl rfl (by simp [methodShape, methodViolation]))
  case body =>
    split
    · exact List.forall_mem_nil _
    · exact List.forall_mem_singleton.mpr
        (.of_shape rfl rfl (by simp [methodShape, methodViolation]))
  case inputs =>
    intro v member
    obtain ⟨i, -, member⟩ := List.mem_flatMap.mp member
    exact inputViolations_ofSignature name i v member

theorem signatureViolations_topic (into name : Ident) (s : Signature) (body : Option Place) :
    (signatureViolations into name s body).IsOn .signature :=
  fun v member => (signatureViolations_ofSignature into name s body v member).topic

theorem unknownViolations_topic (l : LogMethod) :
    Report.IsOn (l.unknownHoles.map l.unknownViolation) .placeholder :=
  Report.isOn_map fun _ => rfl

theorem duplicateViolations_topic (methods : List LogMethod) (id : Int) :
    (duplicateViolations methods id).IsOn .number := by
  simp only [duplicateViolations]
  split
  · exact Report.isOn_single.mpr rfl
  · exact Report.isOn_nil

/-- The rules for a trait speak of its shape and its place. -/
theorem topic_of_mem_shapeViolations {d : Interface} {v : Violation}
    (member : v ∈ d.shapeViolations) : v.topic = .shape ∨ v.topic = .nesting := by
  obtain ⟨front, back, onShape, onBack, parts⟩ := shapeViolations_parts d
  rw [parts, List.mem_append, List.mem_append] at member
  rcases member with (isFront | isNesting) | isBack
  · exact .inl (onShape v isFront)
  · exact .inr (nestingViolations_topic d v isNesting)
  · exact .inl (onBack v isBack)

/-- The rules for a method speak of its signature and its placeholders. -/
theorem topic_of_mem_violations {l : LogMethod} {into : Ident} {v : Violation}
    (member : v ∈ l.violations into) : v.topic = .signature ∨ v.topic = .placeholder := by
  rcases List.mem_append.mp member with signature | unknown
  · exact .inl (signatureViolations_topic _ _ _ _ v signature)
  · exact .inr (unknownViolations_topic l v unknown)

/-- Every violation of an interface comes from a rule for the trait, from one for a method, or from
the one for event ids. -/
theorem exists_of_mem_validate {d : Interface} {v : Violation} (member : v ∈ d.validate) :
    ∃ u : Violation, v = u.of d.name ∧ (u ∈ d.shapeViolations ∨
      (∃ l ∈ d.methods, u ∈ l.violations (Naming.intoCompanion d.companion)) ∨
      ∃ id, u ∈ duplicateViolations d.methods id) := by
  obtain ⟨u, found, rfl⟩ := List.mem_map.mp member
  refine ⟨u, rfl, ?_⟩
  rcases List.mem_append.mp found with rules | numbers
  · exact (List.mem_append.mp rules).imp_right fun methods => .inl (List.mem_flatMap.mp methods)
  · obtain ⟨id, -, twice⟩ := List.mem_flatMap.mp numbers
    exact .inr (.inr ⟨id, twice⟩)

/-! ## Whole reports -/

def violationsOf {α : Type} : Except Report α → Report
  | .ok _ => []
  | .error r => r

theorem violationsOf_expand (t : TraitDecl) (cx : Context) :
    violationsOf (expand t cx) = (t.examine cx).report := by
  rw [expand, Examined.expansion]
  split
  · rename_i silent
    exact (List.isEmpty_iff.mp silent).symm
  · rfl

theorem report_of_expand {t : TraitDecl} {cx : Context} {r : Report}
    (rejected : expand t cx = .error r) : r = (t.examine cx).report := by
  rw [← violationsOf_expand, rejected]
  rfl

/-- The name of the method that wraps a logger in the companion. -/
def TraitDecl.into (t : TraitDecl) (cx : Context) : Ident :=
  Naming.intoCompanion (companionOf t.name cx.extensionArguments.1.name).1

/-- The stages of a report, in their order. -/
theorem report_stages (t : TraitDecl) (cx : Context) :
    (t.examine cx).report = List.map (Violation.of t.name)
      (cx.extensionArguments.2 ++ (companionOf t.name cx.extensionArguments.1.name).2
        ++ (describeItems t.items).violations
        ++ ((t.describe cx).1.shapeViolations
          ++ (describeItems t.items).methods.flatMap (·.violations (t.into cx))
          ++ (declaredIds [] (describeItems t.items).methods).flatMap
            (duplicateViolations (describeItems t.items).methods))) :=
  List.map_append.symm

/-- The part of a report on one topic, stage by stage. -/
theorem report_on (t : TraitDecl) (cx : Context) (topic : Topic) :
    ∃ found shape back number : Report,
      found.IsOn .trigger ∧ shape.IsOn .shape ∧ back.IsOn .shape ∧ number.IsOn .number ∧
      (t.examine cx).report.on topic = List.map (Violation.of t.name)
        (found.on topic ++ Report.on (describeItems t.items).violations topic
          ++ (shape.on topic ++ (t.describe cx).1.nestingViolations.on topic ++ back.on topic
            ++ (describeItems t.items).methods.flatMap
              (fun l => (l.violations (t.into cx)).on topic)
            ++ number.on topic)) := by
  obtain ⟨shape, back, onShape, onBack, parts⟩ := shapeViolations_parts (t.describe cx).1
  let methods := (describeItems t.items).methods
  have found : Report.IsOn (cx.extensionArguments.2
      ++ (companionOf t.name cx.extensionArguments.1.name).2) .trigger :=
    Report.isOn_append.mpr ⟨extensionArguments_topic cx, companionOf_topic _ _⟩
  have number : Report.IsOn ((declaredIds [] methods).flatMap (duplicateViolations methods))
      .number := Report.isOn_flatMap (duplicateViolations_topic methods)
  refine ⟨_, shape, back, _, found, onShape, onBack, number, ?_⟩
  rw [report_stages, Report.on_of, parts]
  simp only [Report.on_append, ← Report.on_flatMap]
  rfl

/-- What a report says about signatures: the violations of the methods that were described,
method by method. -/
theorem report_signatures (t : TraitDecl) (cx : Context) :
    (t.examine cx).report.on .signature =
      ((describeItems t.items).methods.flatMap fun l =>
        signatureViolations (t.into cx) l.name l.signature l.body).map (Violation.of t.name) := by
  obtain ⟨_, _, _, _, found, shape, back, number, report⟩ := report_on t cx .signature
  have method (l : LogMethod) :
      (l.violations (t.into cx)).on .signature
        = signatureViolations (t.into cx) l.name l.signature l.body := by
    simp [LogMethod.violations, Report.on_append, (signatureViolations_topic _ _ _ _).on,
      (unknownViolations_topic l).on]
  rw [report]
  simp [found.on, shape.on, back.on, number.on, (describeItems_topic t.items).on,
    (nestingViolations_topic _).on, method]

/-- What a report says about the place of the trait. -/
theorem report_nesting (t : TraitDecl) (cx : Context) :
    (t.examine cx).report.on .nesting =
      (t.describe cx).1.nestingViolations.map (Violation.of t.name) := by
  obtain ⟨_, _, _, _, found, shape, back, number, report⟩ := report_on t cx .nesting
  have method (l : LogMethod) : (l.violations (t.into cx)).on .nesting = [] := by
    simp [LogMethod.violations, Report.on_append, (signatureViolations_topic _ _ _ _).on,
      (unknownViolations_topic l).on]
  rw [report]
  simp [found.on, shape.on, back.on, number.on, (describeItems_topic t.items).on,
    (nestingViolations_topic _).on, method]

/-! ## Signatures -/

/-- What a report says about the signature of a method: every violation if the method
can be described, and nothing otherwise. -/
def Method.judged (m : Method) (into : Ident) : Report :=
  match m.describe with
  | .ok _ => signatureViolations into m.signature.name m.signature (m.body.map Tree.place)
  | .error _ => []

theorem judged_of_carries {m : Method} {into : Ident}
    (readable : ∃ args segments, m.Carries args segments) :
    m.judged into
      = signatureViolations into m.signature.name m.signature (m.body.map Tree.place) := by
  obtain ⟨args, segments, carries⟩ := readable
  rw [Method.judged, describe_ok_iff.mpr ⟨args, segments, carries, rfl⟩]

theorem judged_of_error {m : Method} {into : Ident} {v : Violation}
    (left : m.describe = .error v) : m.judged into = [] := by
  rw [Method.judged, left]

theorem describeItems_judged (into : Ident) (items : List TraitItem) :
    ((describeItems items).methods.flatMap fun l =>
        signatureViolations into l.name l.signature l.body)
      = (items.filterMap TraitItem.method?).flatMap (·.judged into) := by
  rw [describeItems_flatMap]
  refine List.flatMap_congr fun m _ => ?_
  cases described : m.describe with
  | ok l =>
      obtain ⟨args, segments, carries, rfl⟩ := describe_ok_iff.mp described
      rw [judged_of_carries ⟨args, segments, carries⟩]
      exact List.flatMap_singleton _ _
  | error v =>
      rw [judged_of_error described]
      rfl

/-- What an answer says about signatures, method by method. -/
theorem answer_signatures (t : TraitDecl) (cx : Context) :
    (violationsOf (expand t cx)).on .signature
      = (t.methods.flatMap (·.judged (t.into cx))).map (Violation.of t.name) := by
  rw [violationsOf_expand, report_signatures, describeItems_judged, TraitDecl.methods]

/-! ## One method more -/

theorem describeItems_append (before after : List TraitItem) :
    describeItems (before ++ after) =
      ⟨(describeItems before).methods ++ (describeItems after).methods,
        (describeItems before).foreign ++ (describeItems after).foreign,
        (describeItems before).violations ++ (describeItems after).violations⟩ := by
  fun_induction describeItems before with
  | case1 => rfl
  | case2 m items rest method described ih =>
      simp only [List.cons_append, describeItems, described, ih]
      rfl
  | case3 m items rest v left ih =>
      simp only [List.cons_append, describeItems, left, ih]
      rfl
  | case4 t items rest ih =>
      simp only [List.cons_append, describeItems, ih]
      rfl

def TraitDecl.having (t : TraitDecl) (items : List TraitItem) : TraitDecl := { t with items }

/-- A method that is left out adds one violation to the report of the other items. -/
theorem answer_unreadable {t : TraitDecl} {cx : Context} {before after : List TraitItem}
    {m : Method} {v : Violation} (left : m.describe = .error v) :
    ∃ front back, violationsOf (expand (t.having (before ++ after)) cx) = front ++ back ∧
      violationsOf (expand (t.having (before ++ .method m :: after)) cx)
        = front ++ v.of t.name :: back := by
  have report (u : TraitDecl) : violationsOf (expand u cx) =
      List.map (Violation.of u.name)
          (cx.extensionArguments.2 ++ (companionOf u.name cx.extensionArguments.1.name).2
            ++ (describeItems u.items).violations)
        ++ (u.describe cx).1.validate :=
    violationsOf_expand u cx
  -- The rules see the same interface as without the method.
  have interface : ((t.having (before ++ .method m :: after)).describe cx).1
      = ((t.having (before ++ after)).describe cx).1 := by
    simp only [TraitDecl.describe, TraitDecl.having, describeItems_append, describeItems, left]
  refine ⟨List.map (Violation.of t.name)
      (cx.extensionArguments.2 ++ (companionOf t.name cx.extensionArguments.1.name).2
        ++ (describeItems before).violations),
    (describeItems after).violations.map (Violation.of t.name)
      ++ ((t.having (before ++ after)).describe cx).1.validate, ?_, ?_⟩
  · rw [report]
    simp only [TraitDecl.having, describeItems_append, List.map_append, List.append_assoc]
  · rw [report, interface]
    simp only [TraitDecl.having, describeItems_append, describeItems, left, List.map_append,
      List.map_cons, List.append_assoc, List.cons_append]

/-- **What is wrong with a signature is reported unless the method's own message
hides it.**  A method whose message can be read adds all violations of its signature
to those of the other methods, whatever its message and its other attributes are.  Any
other method is left out: it adds the one violation about its message to the report of
the other items, and nothing about signatures. -/
theorem signatures_reported (t : TraitDecl) (cx : Context) (before after : List TraitItem) :
    ∃ left right,
      (violationsOf (expand (t.having (before ++ after)) cx)).on .signature = left ++ right ∧
      ∀ (s : Signature) (body : Option Tree),
        let own := (signatureViolations (t.into cx) s.name s (body.map Tree.place)).map
          (Violation.of t.name)
        ∀ attributes : List Attribute,
          let m : Method := ⟨attributes, s, body⟩
          let answer := expand (t.having (before ++ .method m :: after)) cx
          ((∃ args segments, m.Carries args segments) →
            (violationsOf answer).on .signature = left ++ own ++ right) ∧
          ((¬∃ args segments, m.Carries args segments) →
            (violationsOf answer).on .signature = left ++ right ∧
            ∃ v, m.describe = .error v ∧ v.topic = .message ∧
              ∃ front back,
                violationsOf (expand (t.having (before ++ after)) cx) = front ++ back ∧
                violationsOf answer = front ++ v.of t.name :: back) := by
  let part (items : List TraitItem) : Report :=
    ((items.filterMap TraitItem.method?).flatMap (·.judged (t.into cx))).map (Violation.of t.name)
  have parts (items : List TraitItem) :
      (violationsOf (expand (t.having items) cx)).on .signature = part items :=
    answer_signatures (t.having items) cx
  have method (m : Method) :
      (violationsOf (expand (t.having (before ++ .method m :: after)) cx)).on .signature
        = part before ++ (m.judged (t.into cx)).map (Violation.of t.name) ++ part after := by
    rw [parts]
    simp [part, TraitItem.method?]
  refine ⟨part before, part after, ?others, fun s body attributes => ⟨?_, ?_⟩⟩
  case others =>
    rw [parts]
    simp [part]
  · intro readable
    rw [method, judged_of_carries readable]
  · intro unreadable
    cases described : Method.describe ⟨attributes, s, body⟩ with
    | ok l =>
        obtain ⟨args, segments, carries, -⟩ := describe_ok_iff.mp described
        exact absurd ⟨args, segments, carries⟩ unreadable
    | error v =>
        refine ⟨?_, v, rfl, (describe_left described).1, answer_unreadable described⟩
        rw [method, judged_of_error described]
        simp

namespace Sample

def generic (attributes : List Attribute) : TraitDecl :=
  let parameter : GenericParam := ⟨.type, .node .typeParam [.token (.word "T")]⟩
  let m := method "stopped" (message "8" "") []
  { interface with
    items := [.method { m with
      attributes
      signature := { m.signature with generics := ⟨[parameter], false⟩ } }] }

end Sample

/-- A generic method is reported as such with a message and not without one. -/
theorem missing_message_hides_signature :
    ((violationsOf (expand (Sample.generic [Sample.message "8" ""]) Sample.context)).on
        .signature).length = 1 ∧
      ((violationsOf (expand (Sample.generic []) Sample.context)).on .signature).length = 0 := by
  decide +kernel

end LogInterface
