/-
# Proofs.Interface.Suggestion -- what is suggested for an unknown placeholder

An unknown placeholder may be a parameter's name misspelt.  Blanks around it do not count, nor does
the case of ASCII letters, and the first parameter that is alike is suggested (`FirstAlike`).  That
need not be the one with the very name: where a parameter that differs from it in case comes
earlier, this one is found (`FirstAlike.exact_iff`), although the search has a test of its own for
the very name.

Whichever it is, following the suggestion works.  The name of a parameter is a word and can stand
between braces; with it in the place of the unknown one, the template is read as before, and only
the binding of this placeholder has changed (`mends`).
-/
import LogInterface.Proofs.Companion.Binding
import LogInterface.Proofs.Generation.Names
import LogInterface.Proofs.Interface.Once
import LogInterface.Proofs.Template.Replacement

namespace LogInterface

open LogInterface.Text

set_option autoImplicit false

/-! ## Names that are alike -/

/-- The first of some names that is the wanted one up to the case of ASCII letters, if there is
one. -/
inductive FirstAlike (names : List String) (wanted : String) : Option String → Prop where
  | found {before after : List String} {name : String} : names = before ++ name :: after →
      equalIgnoringAsciiCase name wanted = true →
      (∀ other ∈ before, equalIgnoringAsciiCase other wanted = false) →
      FirstAlike names wanted (some name)
  | none : (∀ other ∈ names, equalIgnoringAsciiCase other wanted = false) →
      FirstAlike names wanted none

theorem equalIgnoringAsciiCase_self (s : String) : equalIgnoringAsciiCase s s = true :=
  beq_self_eq_true _

/-- There is one answer, that of the search from the first name on. -/
theorem firstAlike_iff {names : List String} {wanted : String} {answer : Option String} :
    FirstAlike names wanted answer
      ↔ answer = names.find? (equalIgnoringAsciiCase · wanted) := by
  constructor
  · rintro (⟨split, alike, earlier⟩ | silent)
    · refine (List.find?_eq_some_iff_append.mpr ?_).symm
      refine ⟨alike, _, _, split, fun other member => ?_⟩
      rw [earlier other member]
      rfl
    · refine (List.find?_eq_none.mpr fun other member => ?_).symm
      rw [silent other member]
      exact Bool.false_ne_true
  · rintro rfl
    cases search : names.find? (equalIgnoringAsciiCase · wanted) with
    | none =>
        exact .none fun other member => by simpa using List.find?_eq_none.mp search other member
    | some name =>
        obtain ⟨alike, before, after, split, earlier⟩ := List.find?_eq_some_iff_append.mp search
        exact .found split alike fun other member => by simpa using earlier other member

/-- What is found is one of the names. -/
theorem FirstAlike.mem {names : List String} {wanted name : String}
    (first : FirstAlike names wanted (some name)) : name ∈ names :=
  List.mem_of_find?_eq_some (firstAlike_iff.mp first).symm

/-- **The wanted name itself is found exactly if nothing that is alike comes before it.** -/
theorem FirstAlike.exact_iff {names : List String} {wanted : String} {answer : Option String}
    (first : FirstAlike names wanted answer) {before after : List String}
    (split : names = before ++ wanted :: after) (new : wanted ∉ before) :
    answer = some wanted ↔ ∀ other ∈ before, equalIgnoringAsciiCase other wanted = false := by
  have search : answer = (before.find? (equalIgnoringAsciiCase · wanted)).or (some wanted) := by
    rw [firstAlike_iff.mp first, split, List.find?_append]
    exact congrArg _ (List.find?_cons_of_pos (equalIgnoringAsciiCase_self wanted))
  cases earlier : before.find? (equalIgnoringAsciiCase · wanted) with
  | none =>
      rw [search, earlier]
      refine iff_of_true rfl fun other member => ?_
      exact Bool.eq_false_iff.mpr (List.find?_eq_none.mp earlier other member)
  | some name =>
      have member := List.mem_of_find?_eq_some earlier
      rw [search, earlier]
      refine iff_of_false ?_ fun fresh => ?_
      · intro same
        cases same
        exact new member
      · have alike := List.find?_some earlier
        rw [fresh name member] at alike
        cases alike

/-! ## Replacing a placeholder -/

/-- A word can stand between braces. -/
theorem isHoleName_of_isWord {name : String} (word : IsWord name.toList) :
    Template.IsHoleName name := by
  constructor
  · intro member
    exact absurd (word.goesOn _ member) (by decide)
  · intro first
    exact absurd (word.goesOn _ (List.mem_of_head? first)) (by decide)

/-- A placeholder is unknown: it is in the template, and no parameter has its name. -/
structure Method.Misspells (m : Method) (args : MessageArguments) (name : String) : Prop where
  isHole : name ∈ Template.holes args.message.value
  unknown : ∀ i ∈ m.signature.idents, i.name ≠ name

/-- Wherever the placeholder `name` stands in the template, it is bound to nothing; and once `field`
stands there in its place, the template can be parsed, this placeholder is bound to a parameter of
its name, and every other one to what it was bound to. -/
def Method.Mends (m : Method) (args : MessageArguments) (name field : String) : Prop :=
  ∀ before after, Template.holes args.message.value = before ++ name :: after →
    ∃ front rest, Template.HasHole args.message.value front name rest ∧
      Template.holes front = before ∧
      ∀ args' : MessageArguments, args'.message.value = Template.withHole front field rest →
        ∃ segments segments', Template.parse args.message.value = .ok segments ∧
          Template.parse args'.message.value = .ok segments' ∧
          ∃ left p right, p.field = field ∧ left.map Prod.fst = before ∧
            right.map Prod.fst = after ∧
            (LogMethod.bind m args segments).pairs = left ++ (name, none) :: right ∧
            (LogMethod.bind m args' segments').pairs = left ++ (field, some p) :: right

section Described

variable {m : Method} {args : MessageArguments} {segments : List Segment} {name : String}

/-- The fields of a log method are the names of the plain parameters. -/
theorem fields_parametersFrom (m : Method) :
    (parametersFrom 0 m.signature.inputs).map Parameter.field
      = m.signature.idents.map Ident.name := by
  rw [Signature.idents, ← parametersFrom_names 0, List.map_map]
  rfl

theorem fields_ne_iff :
    (∀ p ∈ parametersFrom 0 m.signature.inputs, p.field ≠ name)
      ↔ ∀ i ∈ m.signature.idents, i.name ≠ name := by
  rw [← List.forall_mem_map (f := Parameter.field) (P := fun field => field ≠ name),
    fields_parametersFrom, List.forall_mem_map]

/-- **Following a suggestion works**: any name of a parameter mends an unknown placeholder. -/
theorem mends (named : m.IsNamed) (carries : m.Carries args segments)
    (misspelt : m.Misspells args name) {field : String}
    (isField : field ∈ m.signature.idents.map Ident.name) : m.Mends args name field := by
  intro before after listed
  obtain ⟨front, rest, hole, fronts, rests⟩ := Template.exists_hasHole carries.parsed listed
  obtain ⟨i, isParameter, ofField⟩ := List.mem_map.mp isField
  have proper : Template.IsHoleName field := by
    rw [← ofField]
    exact isHoleName_of_isWord (named.parameters i isParameter).isWord
  have mended := hole.replaced proper
  refine ⟨front, rest, hole, fronts, fun args' written => ?_⟩
  obtain ⟨segments', parsed'⟩ := mended.parse_iff.mpr (hole.parse_iff.mp ⟨segments, carries.parsed⟩)
  rw [← written] at parsed'
  have names := (Template.names_of_parse carries.parsed).trans listed
  have names' : Template.names segments' = before ++ field :: after := by
    rw [Template.names_of_parse parsed', written, mended.holes_eq, fronts, rests]
  -- The parameters are those of the signature, whatever the message is.
  let parameters := parametersFrom 0 m.signature.inputs
  have unknown : parameters.find? (·.field == name) = none := by
    refine List.find?_eq_none.mpr fun p member same => ?_
    exact fields_ne_iff.mpr misspelt.unknown p member (beq_iff_eq.mp same)
  obtain ⟨p, found⟩ : ∃ p, parameters.find? (·.field == field) = some p := by
    rw [← fields_parametersFrom] at isField
    obtain ⟨p, member, same⟩ := List.mem_map.mp isField
    exact Option.isSome_iff_exists.mp (List.find?_isSome.mpr ⟨p, member, beq_iff_eq.mpr same⟩)
  have isNamed : (p.field == field) = true :=
    List.find?_some (p := fun p : Parameter => p.field == field) found
  let bound (name : String) := (name, parameters.find? (·.field == name))
  have paired (args : MessageArguments) (segments : List Segment) :
      (LogMethod.bind m args segments).pairs = (Template.names segments).map bound :=
    (bindings_in_step m args segments).2.2.pairs
  refine ⟨segments, segments', carries.parsed, parsed', before.map bound, p, after.map bound,
    beq_iff_eq.mp isNamed, ?_, ?_, ?_, ?_⟩
  · exact (List.map_map ..).trans (List.map_id _)
  · exact (List.map_map ..).trans (List.map_id _)
  · rw [paired, names, List.map_append, List.map_cons, ← unknown]
  · rw [paired, names', List.map_append, List.map_cons, ← found]

/-! ## What is suggested -/

/-- The help names one parameter to use instead, or it names none in this way. -/
inductive Violation.Suggests (v : Violation) : Option String → Prop where
  | one {field : String} : v.help = some ("did you mean " ++ holeText field ++ "?") →
      Suggests v (some field)
  | other {help : String} : v.help = some help → ¬"did you mean".toList <+: help.toList →
      Suggests v none

theorem closeParameter?_field (l : LogMethod) (placeholder : String) :
    FirstAlike (l.parameters.map Parameter.field) (trim placeholder)
      ((l.closeParameter? placeholder).map Parameter.field) := by
  -- The test for the very name adds nothing to the one for what is alike.
  have redundant (field : String) :
      (field == trim placeholder || equalIgnoringAsciiCase field (trim placeholder))
        = equalIgnoringAsciiCase field (trim placeholder) := by
    by_cases same : field = trim placeholder
    · rw [same, equalIgnoringAsciiCase_self, Bool.or_true]
    · rw [beq_false_of_ne same, Bool.false_or]
  rw [firstAlike_iff, List.find?_map, LogMethod.closeParameter?]
  simp only [redundant]
  rfl

/-- Help without a suggestion starts with the name of the method, or with the parameters. -/
theorem suggestion_suggests {l : LogMethod} {placeholder : String} {v : Violation}
    (help : v.help = some (l.suggestion placeholder)) :
    v.Suggests ((l.closeParameter? placeholder).map Parameter.field) := by
  unfold LogMethod.suggestion at help
  cases close : l.closeParameter? placeholder with
  | some p =>
      simp only [close] at help
      exact .one help
  | none =>
      simp only [close] at help
      refine .other help ?_
      split
      · simp [Ident.quoted, quoted, String.toList_append]
      · simp [String.toList_append]

/-- The violation is the one for an unknown placeholder of the method.  What it suggests is the
first parameter that is alike but for blanks around it and the case of ASCII letters: the one with
the very name if none that is alike comes earlier.  Following it mends the placeholder. -/
structure Violation.Advises (v : Violation) (m : Method) (args : MessageArguments)
    (name : String) : Prop where
  kind : v.kind = .unknownPlaceholder
  method : v.method = some m.signature.name.text
  subject : v.subject = some name
  advice : ∃ answer, v.Suggests answer ∧
    FirstAlike (m.signature.idents.map Ident.name) (trim name) answer ∧
    (∀ before after, m.signature.idents.map Ident.name = before ++ trim name :: after →
      trim name ∉ before → (answer = some (trim name)
        ↔ ∀ other ∈ before, equalIgnoringAsciiCase other (trim name) = false)) ∧
    ∀ field, answer = some field → m.Mends args name field

theorem unknownViolation_advises {d : Interface} {position : Nat} (named : m.IsNamed)
    (carries : m.Carries args segments) (misspelt : m.Misspells args name) :
    (((LogMethod.bind m args segments).unknownViolation (name, position)).of d.name).Advises m args
      name := by
  have first := closeParameter?_field (LogMethod.bind m args segments) name
  rw [show (LogMethod.bind m args segments).parameters.map Parameter.field = _ from
    fields_parametersFrom m] at first
  refine ⟨rfl, rfl, rfl, _, suggestion_suggests rfl, first, fun before after split new =>
    first.exact_iff split new, ?_⟩
  rintro field found
  rw [found] at first
  exact mends named carries misspelt first.mem

theorem mem_unknownHoles_iff (carries : m.Carries args segments) :
    name ∈ (LogMethod.bind m args segments).unknownHoles.map Prod.fst ↔ m.Misspells args name := by
  rw [mem_unknownNames, Template.names_of_parse carries.parsed]
  constructor
  · rintro ⟨isHole, others⟩
    exact ⟨isHole, fields_ne_iff.mp others⟩
  · rintro ⟨isHole, unknown⟩
    exact ⟨isHole, fields_ne_iff.mpr unknown⟩

end Described

theorem unknownViolation_mem_validate {d : Interface} {l : LogMethod} {hole : String × Nat}
    (isMethod : l ∈ d.methods) (isUnknown : hole ∈ l.unknownHoles) :
    (l.unknownViolation hole).of d.name ∈ d.validate := by
  have inMethod : l.unknownViolation hole ∈ l.violations (Naming.intoCompanion d.companion) :=
    List.mem_append_right _ (List.mem_map_of_mem isUnknown)
  refine List.mem_map_of_mem (List.mem_append_left _ (List.mem_append_right _ ?_))
  exact List.mem_flatMap.mpr ⟨l, isMethod, inMethod⟩

/-- **The first parameter that is alike is suggested for an unknown placeholder**, and following
the suggestion binds it: so it is with every violation of this kind, and there is one for every
unknown placeholder of every method. -/
theorem suggestion_binds (t : TraitDecl) (cx : Context) (named : ∀ m ∈ t.methods, m.IsNamed) :
    (∀ v ∈ (t.describe cx).1.validate, v.kind = .unknownPlaceholder →
      ∃ m ∈ t.methods, ∃ args segments name, m.Carries args segments ∧ m.Misspells args name ∧
        v.Advises m args name) ∧
    ∀ m ∈ t.methods, ∀ args segments name, m.Carries args segments → m.Misspells args name →
      ∃ v ∈ (t.describe cx).1.validate, v.Advises m args name := by
  constructor
  · intro v member kind
    obtain ⟨l, isMethod, ⟨name, position⟩, isUnknown, rfl⟩ :=
      unknownViolation_of_validate member kind
    obtain ⟨m, declared, described⟩ := exists_of_mem_describeItems isMethod
    obtain ⟨args, segments, carries, rfl⟩ := describe_ok_iff.mp described
    have misspelt := (mem_unknownHoles_iff carries).mp (List.mem_map_of_mem isUnknown)
    exact ⟨m, declared, args, segments, name, carries, misspelt,
      unknownViolation_advises (named m declared) carries misspelt⟩
  · intro m declared args segments name carries misspelt
    obtain ⟨hole, isUnknown, rfl⟩ :=
      List.mem_map.mp ((mem_unknownHoles_iff carries).mpr misspelt)
    have isMethod : LogMethod.bind m args segments ∈ (t.describe cx).1.methods :=
      mem_describeItems declared (describe_ok_iff.mpr ⟨args, segments, carries, rfl⟩)
    exact ⟨_, unknownViolation_mem_validate isMethod isUnknown,
      unknownViolation_advises (named m declared) carries misspelt⟩

/-- A trait with a placeholder between blanks, and two parameters whose names differ in case. -/
def Sample.lookalikes : TraitDecl :=
  { interface with
    items :=
      [.method (method "failed" (message "1" "\x7b user \x7d")
        [parameter "User" "User", parameter "user" "User"])] }

theorem suggestion_binds_sample :
    (∀ m ∈ Sample.lookalikes.methods, m.IsNamed) ∧
      ∃ v ∈ (Sample.lookalikes.describe Sample.context).1.validate, v.kind = .unknownPlaceholder ∧
        ∃ m ∈ Sample.lookalikes.methods, ∃ args segments name, m.Carries args segments ∧
          m.Misspells args name ∧ v.Advises m args name := by
  have names : ∀ m ∈ Sample.lookalikes.methods, IsName m.signature.name.text := by decide
  have parameters : ∀ m ∈ Sample.lookalikes.methods, ∀ i ∈ m.signature.idents, IsName i.text := by
    decide
  have named : ∀ m ∈ Sample.lookalikes.methods, m.IsNamed :=
    fun m member => ⟨names m member, parameters m member⟩
  have reported : (Sample.lookalikes.describe Sample.context).1.validate.any
      (·.kind = .unknownPlaceholder) := by decide +kernel
  obtain ⟨v, member, kind⟩ := List.any_eq_true.mp reported
  have kind := of_decide_eq_true kind
  exact ⟨named, v, member, kind,
    (suggestion_binds Sample.lookalikes Sample.context named).1 v member kind⟩

/-- Without its blanks the placeholder is the second parameter, but the first one is suggested. -/
theorem exact_name_passed_over :
    (∃ m ∈ Sample.lookalikes.methods,
        m.signature.idents.map Ident.name = ["User", "user"]) ∧ trim " user " = "user" ∧
      ∃ v ∈ (Sample.lookalikes.describe Sample.context).1.validate,
        v.method = some "failed" ∧ v.subject = some " user " ∧
          v.help = some ("did you mean " ++ holeText "User" ++ "?") ∧
          v.help ≠ some ("did you mean " ++ holeText "user" ++ "?") := by
  have reported : (Sample.lookalikes.describe Sample.context).1.validate.any fun v =>
      v.method = some "failed" ∧ v.subject = some " user " ∧
        v.help = some ("did you mean " ++ holeText "User" ++ "?") ∧
        v.help ≠ some ("did you mean " ++ holeText "user" ++ "?") := by decide +kernel
  obtain ⟨v, member, found⟩ := List.any_eq_true.mp reported
  exact ⟨⟨_, List.mem_singleton_self _, rfl⟩, by decide, v, member, of_decide_eq_true found⟩

end LogInterface
