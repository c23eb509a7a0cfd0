/-
# Proofs.Interface.Rules -- when a rule is silent

`Interface.validate` collects violations from many rules, and what counts in the
end is whether there are any.  Here each rule has a condition of its own that says
when it is silent, and the conditions of all rules for one thing make a
structure: `Interface.HasShape` for the trait and `Signature.IsLogging` for the
signature of a method.
-/
import LogInterface.Interface.Validation
import LogInterface.Proofs.Interface.Described
import LogInterface.Proofs.Interface.Firsts
import LogInterface.Proofs.Source.Occurrence

namespace LogInterface

set_option autoImplicit false

theorem violationIf_eq_nil {condition : Bool} {v : Violation} :
    violationIf condition v = [] ↔ condition = false := by
  cases condition <;> simp [violationIf]

/-! ## The trait -/

/-- The rules for a trait that do not look at its methods. -/
structure Interface.HasShape (d : Interface) : Prop where
  ungeneric : d.generics.params = []
  clauseless : d.clause = none
  unnested : d.nested = false
  single : d.triggers ≤ 1
  root : d.supertraits = []
  unqualified : d.qualifiers = []
  native : d.foreign = []
  distinct : d.companion.text ≠ d.name.text ∧
    (Naming.extensionTrait d.companion).text ≠ d.name.text

theorem collides_eq_false {d : Interface} :
    d.collides = false ↔ d.companion.text ≠ d.name.text ∧
      (Naming.extensionTrait d.companion).text ≠ d.name.text := by
  simp [Interface.collides]

theorem shapeViolations_eq_nil {d : Interface} : d.shapeViolations = [] ↔ d.HasShape := by
  have shape : d.HasShape ↔ ((((((d.generics.params = [] ∧ d.clause = none) ∧ d.nested = false)
      ∧ d.triggers ≤ 1) ∧ d.supertraits = []) ∧ d.qualifiers = []) ∧ d.foreign = [])
      ∧ d.companion.text ≠ d.name.text ∧ (Naming.extensionTrait d.companion).text ≠ d.name.text :=
    ⟨fun ⟨a, b, c, e, f, g, h, i⟩ => ⟨⟨⟨⟨⟨⟨⟨a, b⟩, c⟩, e⟩, f⟩, g⟩, h⟩, i⟩,
      fun ⟨⟨⟨⟨⟨⟨⟨a, b⟩, c⟩, e⟩, f⟩, g⟩, h⟩, i⟩ => ⟨a, b, c, e, f, g, h, i⟩⟩
  rw [shape, ← collides_eq_false]
  simp only [Interface.shapeViolations, List.append_eq_nil_iff, List.map_eq_nil_iff,
    violationIf_eq_nil, decide_eq_false_iff_not, Nat.not_lt]
  cases d.generics.params <;> cases d.clause <;> simp

/-! ## Signatures -/

/-- The result of a function without a result: it is left out or an empty tuple. -/
def Signature.ReturnsNothing (s : Signature) : Prop :=
  s.output = none ∨ ∃ delimiter opens closes,
    s.output = some (.node .tupleType [.group delimiter opens closes []])

/-- The first input is a shared reference to the receiver, with no type of its own. -/
def Signature.TakesRef (s : Signature) : Prop :=
  ∃ r rest, s.inputs = .receiver r :: rest ∧
    r.reference.isSome ∧ r.mutability = none ∧ r.type = none

structure IsParameter (pattern : Pattern) (type : Tree) : Prop where
  /-- It is a plain name that does not start with two underscores. -/
  named : ∃ i, pattern = .name i ∧ ¬"__".toList <+: i.text.toList
  plain : type.IsPlain

structure Signature.IsLogging (s : Signature) : Prop where
  lifetimes : ∀ p ∈ s.generics.params, p.kind = .lifetime
  clauseless : s.clause = none
  silent : s.ReturnsNothing
  receiver : s.TakesRef
  unqualified : s.constness = none ∧ s.asyncness = none ∧ s.unsafety = none ∧ s.abi = none
  fixed : s.variadic = none
  /-- Every other input; only the first one is ever written as a receiver. -/
  parameters : ∀ attributes pattern type, .typed attributes pattern type ∈ s.inputs →
    IsParameter pattern type

theorem isUnit_iff {t : Tree} :
    t.isUnit ↔ ∃ delimiter opens closes,
      t = .node .tupleType [.group delimiter opens closes []] := by
  constructor
  · intro unit
    unfold Tree.isUnit at unit
    split at unit
    · exact ⟨_, _, _, rfl⟩
    · cases unit
  · rintro ⟨delimiter, opens, closes, rfl⟩
    rfl

theorem headViolations_eq_nil {name : Ident} {s : Signature} :
    headViolations name s = [] ↔
      (∀ p ∈ s.generics.params, p.kind = .lifetime) ∧ s.clause = none ∧ s.ReturnsNothing := by
  rw [headViolations, List.append_eq_nil_iff, List.append_eq_nil_iff, and_assoc]
  refine and_congr ?generics (and_congr ?clause ?output)
  case generics =>
    have none_iff : s.generics.params.find? (·.kind ≠ .lifetime) = none
        ↔ ∀ p ∈ s.generics.params, p.kind = .lifetime := by simp
    rw [← none_iff]
    cases s.generics.params.find? (·.kind ≠ .lifetime) <;> simp
  case clause => cases s.clause <;> simp
  case output =>
    rw [Signature.ReturnsNothing]
    cases s.output with
    | none => simp
    | some t => simp [violationIf_eq_nil, isUnit_iff]

theorem receiverViolations_eq_nil {name : Ident} {s : Signature} :
    receiverViolations name s = [] ↔ s.TakesRef := by
  rw [receiverViolations, Signature.receiver?, Signature.TakesRef]
  match s.inputs with
  | [] => simp
  | .typed _ _ _ :: _ => simp
  | .receiver r :: rest => simp [violationIf_eq_nil, Receiver.isShared, and_assoc]

theorem qualifierViolations_eq_nil {name : Ident} {s : Signature} :
    qualifierViolations name s = [] ↔
      (s.constness = none ∧ s.asyncness = none ∧ s.unsafety = none ∧ s.abi = none)
        ∧ s.variadic = none := by
  rw [qualifierViolations, List.append_eq_nil_iff]
  refine and_congr (by simp [Signature.qualifiers]) ?_
  cases s.variadic <;> simp

theorem patternViolations_eq_nil {name : Ident} {pattern : Pattern} :
    patternViolations name pattern = []
      ↔ ∃ i, pattern = .name i ∧ ¬"__".toList <+: i.text.toList := by
  cases pattern with
  | name i => simp [patternViolations, violationIf_eq_nil, ← List.isPrefixOf_iff_prefix]
  | other t => simp [patternViolations]

theorem typeViolations_eq_nil {name : Ident} {t : Tree} :
    typeViolations name t = [] ↔ t.IsPlain := by
  rw [plain_iff, typeViolations, List.append_eq_nil_iff]
  cases t.implMention? <;> cases t.selfMention? <;> simp

theorem inputViolations_eq_nil {name : Ident} {inputs : List Input} :
    inputs.flatMap (inputViolations name) = [] ↔
      ∀ attributes pattern type, .typed attributes pattern type ∈ inputs →
        IsParameter pattern type := by
  rw [List.flatMap_eq_nil_iff]
  constructor
  · intro silent attributes pattern type member
    obtain ⟨onPattern, onType⟩ := List.append_eq_nil_iff.mp (silent _ member)
    exact ⟨patternViolations_eq_nil.mp onPattern, typeViolations_eq_nil.mp onType⟩
  · intro parameters i member
    match i with
    | .receiver _ => rfl
    | .typed attributes pattern type =>
        obtain ⟨named, plain⟩ := parameters _ _ _ member
        exact List.append_eq_nil_iff.mpr
          ⟨patternViolations_eq_nil.mpr named, typeViolations_eq_nil.mpr plain⟩

theorem signatureViolations_eq_nil {into name : Ident} {s : Signature} {body : Option Place} :
    signatureViolations into name s body = []
      ↔ name.name ≠ into.text ∧ s.IsLogging ∧ body = none := by
  simp only [signatureViolations, List.append_eq_nil_iff, violationIf_eq_nil, beq_eq_false_iff_ne,
    headViolations_eq_nil, receiverViolations_eq_nil, qualifierViolations_eq_nil,
    inputViolations_eq_nil]
  cases body with
  | some p => simp
  | none =>
      constructor
      · rintro ⟨⟨⟨⟨⟨other, lifetimes, clauseless, silent⟩, receiver⟩, unqualified, fixed⟩, -⟩,
          parameters⟩
        exact ⟨other, ⟨lifetimes, clauseless, silent, receiver, unqualified, fixed, parameters⟩,
          rfl⟩
      · rintro ⟨other, ⟨lifetimes, clauseless, silent, receiver, unqualified, fixed, parameters⟩,
          -⟩
        exact ⟨⟨⟨⟨⟨other, lifetimes, clauseless, silent⟩, receiver⟩, unqualified, fixed⟩, rfl⟩,
          parameters⟩

/-! ## Placeholders -/

theorem firstOfName_eq_nil {holes : List (String × Nat)} :
    LogMethod.firstOfName [] holes = [] ↔ holes = [] := by
  cases holes <;> simp [LogMethod.firstOfName]

theorem holes_names (m : LogMethod) : m.holes.map Prod.fst = Template.names m.segments := by
  rw [LogMethod.holes, Template.names, List.map_filterMap]
  congr 1
  funext s
  cases s <;> rfl

/-- The holes that are bound to nothing. -/
theorem unboundHoles {l : LogMethod}
    (bound : l.bindings = (Template.names l.segments).map (bindName l.parameters)) :
    ((l.holes.zip l.bindings).filter fun (_, binding) => binding.isNone).map Prod.fst
      = l.holes.filter fun hole => (bindName l.parameters hole.1).isNone := by
  have bindings : l.bindings = l.holes.map fun hole => bindName l.parameters hole.1 := by
    rw [bound, ← holes_names, List.map_map]
    rfl
  rw [bindings, ← List.map_prod_left_eq_zip, List.filter_map, List.map_map]
  exact List.map_id _

/-- Every placeholder is bound exactly if every one names a parameter. -/
theorem unknownHoles_bind {m : Method} {args : MessageArguments} {segments : List Segment} :
    (LogMethod.bind m args segments).unknownHoles = [] ↔
      ∀ name ∈ Template.names segments, ∃ i ∈ m.signature.idents, i.name = name := by
  have holes : Template.names segments
      = (LogMethod.bind m args segments).holes.map Prod.fst :=
    (holes_names (LogMethod.bind m args segments)).symm
  have known (name : String) :
      ¬(bindName (LogMethod.bind m args segments).parameters name).isNone
        ↔ ∃ i ∈ m.signature.idents, i.name = name := by
    rw [Option.isNone_iff_eq_none]
    show ¬bindName (parametersFrom 0 m.signature.inputs) name = none ↔ _
    rw [bindName_parametersFrom]
    simp only [Signature.idents, ne_eq, not_forall, not_not, exists_prop]
  rw [LogMethod.unknownHoles, firstOfName_eq_nil, unboundHoles rfl, List.filter_eq_nil_iff, holes,
    List.forall_mem_map]
  simp only [known]

/-- The rules for a method that carries a message. -/
theorem violations_bind {into : Ident} {m : Method} {args : MessageArguments}
    {segments : List Segment} :
    (LogMethod.bind m args segments).violations into = [] ↔
      (m.signature.name.name ≠ into.text ∧ m.signature.IsLogging ∧ m.body = none) ∧
        ∀ name ∈ Template.names segments, ∃ i ∈ m.signature.idents, i.name = name := by
  rw [LogMethod.violations, List.append_eq_nil_iff, List.map_eq_nil_iff, unknownHoles_bind,
    signatureViolations_eq_nil, ← Option.map_eq_none_iff (f := Tree.place)]
  rfl

/-! ## Event ids -/

theorem mem_declaredIds {seen : List Int} {ms : List LogMethod} {id : Int} :
    id ∈ declaredIds seen ms ↔ id ∉ seen ∧ id ∈ ms.map (·.event.value) := by
  rw [declaredIds_eq, mem_map_firsts]

theorem duplicateViolations_eq_nil {ms : List LogMethod} {id : Int} :
    duplicateViolations ms id = [] ↔ (ms.map (·.event.value)).count id ≤ 1 := by
  have counted : (ms.map (·.event.value)).count id
      = (ms.filter (·.event.value = id)).length := by
    rw [List.count, List.countP_map, List.countP_eq_length_filter]
    rfl
  rw [counted]
  unfold duplicateViolations
  match declaring : ms.filter (·.event.value = id) with
  | [] => simp [declaring]
  | [_] => simp [declaring]
  | _ :: _ :: _ => simp [declaring]

/-- No id is declared twice exactly if the ids are distinct. -/
theorem duplicates_eq_nil {ms : List LogMethod} :
    (declaredIds [] ms).flatMap (duplicateViolations ms) = []
      ↔ (ms.map (·.event.value)).Nodup := by
  rw [List.flatMap_eq_nil_iff, List.nodup_iff_count]
  simp only [duplicateViolations_eq_nil, mem_declaredIds]
  constructor
  · intro silent id
    by_cases declared : id ∈ ms.map (·.event.value)
    · exact silent id ⟨List.not_mem_nil, declared⟩
    · rw [List.count_eq_zero_of_not_mem declared]
      exact Nat.zero_le 1
  · intro single id _
    exact single id

/-! ## All rules -/

/-- **All rules are silent exactly if each is**: those for the trait, those for every
method, and the one for event ids. -/
theorem validate_eq_nil {d : Interface} :
    d.validate = [] ↔ d.HasShape
      ∧ (∀ m ∈ d.methods, m.violations (Naming.intoCompanion d.companion) = [])
      ∧ (d.methods.map (·.event.value)).Nodup := by
  rw [Interface.validate, List.map_eq_nil_iff, List.append_eq_nil_iff, List.append_eq_nil_iff,
    shapeViolations_eq_nil, List.flatMap_eq_nil_iff, duplicates_eq_nil, and_assoc]

end LogInterface
