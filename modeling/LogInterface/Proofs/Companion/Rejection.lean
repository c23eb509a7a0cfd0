/-
# Proofs.Companion.Rejection -- what a rejected trait expands to

A trait that is rejected stays, without the attributes that only the generator reads
(`TraitDecl.Strips`), and the compiler is shown every violation behind it.

The violations pass through two lists on the way.  A report has its stages
(`report_staged`): what could not be described, what is wrong with the trait, what is wrong with
each method in the order of the declarations, and the event ids that are declared twice.  Then
each violation becomes an error, and the errors are combined to one.  All that is asked of the
compiler's errors is that combining keeps both lists of messages and that every message is shown
(`CompilerErrors`).  So nothing is lost, moved or added from the first violation to the last
token: `rejection_reported`.
-/
import LogInterface.Proofs.Interface.Culprit
import LogInterface.Proofs.Text.Excerpt

namespace LogInterface

open LogInterface.Text

set_option autoImplicit false

/-! ## The trait that stays -/

/-- A method that is no log method any more is one without its messages. -/
inductive TraitItem.Strips : TraitItem → TraitItem → Prop where
  | method {m m' : Method} :
      m'.attributes = m.attributes.filter (!·.isMessage) → m'.signature = m.signature →
      m'.body = m.body → Strips (.method m) (.method m')
  | other (item : Tree) : Strips (.other item) (.other item)

/-- A trait without the generator's attributes, and otherwise the same. -/
structure TraitDecl.Strips (t t' : TraitDecl) : Prop where
  attributes : t'.attributes = t.attributes.filter (!·.isTrigger)
  items : List.Forall₂ TraitItem.Strips t.items t'.items
  same : { t' with attributes := t.attributes, items := t.items } = t

theorem strips_stripped (t : TraitDecl) : t.Strips t.stripped := by
  refine ⟨rfl, List.forall₂_map_right_iff.mpr (List.forall₂_same.mpr fun item _ => ?items), ?same⟩
  case items =>
    cases item with
    | method m => exact .method rfl rfl rfl
    | other tree => exact .other tree
  case same =>
    cases t
    rfl

/-! ## The stages of a report -/

/-- What the rules say of one method: each violation names it. -/
def Method.Judges (m : Method) (part : Report) : Prop :=
  ∀ v ∈ part, v.method = some m.signature.name.text ∧
    (v.kind = .invalidMethodShape ∨ v.kind = .unknownPlaceholder)

/-- The stages of the report about a trait: what could not be described, then the rules for the
trait, for each of its methods in turn, and for event ids. -/
structure TraitDecl.Stages (t : TraitDecl) (cx : Context) (built shape : Report)
    (methods : List Report) (numbers : Report) : Prop where
  built : (t.describe cx).2 = built
  found : (t.describe cx).1.validate = shape ++ methods.flatten ++ numbers
  shape : ∀ v ∈ shape, v.kind = .invalidInterfaceShape ∧ v.method = none
  methods : List.Forall₂ Method.Judges t.methods methods
  numbers : ∀ v ∈ numbers, v.kind = .duplicateEventId

/-- What the rules say of a method.  They are silent about a method that is left out. -/
def Method.broken (m : Method) (into : Ident) : Report :=
  m.describe.toOption.toList.flatMap (·.violations into)

theorem judges_broken (m : Method) (into interface : Ident) :
    m.Judges ((m.broken into).map (Violation.of interface)) := by
  intro v member
  obtain ⟨u, broken, rfl⟩ := List.mem_map.mp member
  obtain ⟨l, isMethod, broken⟩ := List.mem_flatMap.mp broken
  have described : m.describe = .ok l := ok_of_toOption (Option.mem_toList.mp isMethod)
  obtain ⟨args, segments, -, rfl⟩ := describe_ok_iff.mp described
  have names : u.method = some m.signature.name.text := violations_name _ into u broken
  have kind := kind_of_mem_violations broken
  exact ⟨names, kind⟩

/-- Every report has its stages, in this order. -/
theorem report_staged (t : TraitDecl) (cx : Context) :
    ∃ built shape methods numbers, t.Stages cx built shape methods numbers ∧
      (t.examine cx).report = built ++ shape ++ methods.flatten ++ numbers := by
  let d := (t.describe cx).1
  let described := (describeItems t.items).methods
  let shape : Report := d.shapeViolations.map (Violation.of t.name)
  let methods : List Report :=
    t.methods.map fun m => (m.broken (t.into cx)).map (Violation.of t.name)
  let numbers : Report :=
    ((declaredIds [] described).flatMap (duplicateViolations described)).map (Violation.of t.name)
  have flat : methods.flatten
      = (described.flatMap (·.violations (t.into cx))).map (Violation.of t.name) := by
    rw [describeItems_flatMap, List.map_flatMap, List.flatMap_def]
    rfl
  have found : d.validate = shape ++ methods.flatten ++ numbers := by
    rw [flat, ← List.map_append, ← List.map_append]
    rfl
  refine ⟨(t.describe cx).2, shape, methods, numbers, ⟨rfl, found, ?shape, ?methods, ?numbers⟩, ?_⟩
  case shape =>
    intro v member
    obtain ⟨u, broken, rfl⟩ := List.mem_map.mp member
    obtain ⟨kind, unnamed, -⟩ := shapeViolations_ofShape d u broken
    exact ⟨kind, unnamed⟩
  case methods =>
    exact List.forall₂_map_right_iff.mpr
      (List.forall₂_same.mpr fun m _ => judges_broken m (t.into cx) t.name)
  case numbers =>
    intro v member
    obtain ⟨u, broken, rfl⟩ := List.mem_map.mp member
    obtain ⟨id, -, twice⟩ := List.mem_flatMap.mp broken
    have kind := kind_of_mem_duplicateViolations twice
    exact kind
  · rw [List.append_assoc, List.append_assoc, ← List.append_assoc shape, ← found]
    rfl

/-! ## The errors of the compiler -/

def showMessages (messages : List (Place × String)) : List Token :=
  messages.flatMap fun message => compileError message.2

structure CompilerErrors where
  /-- One error, or several that were combined. -/
  Error : Type
  single : Place → String → Error
  combine : Error → Error → Error
  tokens : Error → List Token
  /-- What an error says, and where. -/
  messages : Error → List (Place × String)
  messages_single : ∀ place text, messages (single place text) = [(place, text)]
  /-- Combining appends. -/
  messages_combine : ∀ e e', messages (combine e e') = messages e ++ messages e'
  tokens_eq : ∀ e, tokens e = showMessages (messages e)

section Errors

variable (E : CompilerErrors)

def Violation.error (v : Violation) : E.Error := E.single v.place v.compilerText

namespace Report

def error? (r : Report) : Option E.Error :=
  match r.map (Violation.error E) with
  | [] => none
  | e :: es => some (es.foldl E.combine e)

def errorTokens (r : Report) : List Token := ((r.error? E).map E.tokens).getD []

end Report

theorem messages_foldl (e : E.Error) (es : List E.Error) :
    E.messages (es.foldl E.combine e) = E.messages e ++ es.flatMap E.messages := by
  induction es generalizing e with
  | nil => exact (List.append_nil _).symm
  | cons e' es ih =>
      rw [List.foldl_cons, ih, E.messages_combine, List.flatMap_cons, List.append_assoc]

/-- The one error says what the violations say, in their order. -/
theorem messages_error? (v : Violation) (r : Report) :
    (Report.error? E (v :: r)).map E.messages
      = some ((v :: r).map fun v => (v.place, v.compilerText)) := by
  have each (v : Violation) : E.messages (v.error E) = [(v.place, v.compilerText)] :=
    E.messages_single v.place v.compilerText
  have rest : (r.map (Violation.error E)).flatMap E.messages
      = r.map fun v => (v.place, v.compilerText) := by
    rw [List.flatMap_map, List.map_eq_flatMap]
    exact List.flatMap_congr fun v _ => each v
  show some (E.messages ((r.map (Violation.error E)).foldl E.combine (v.error E))) = _
  rw [messages_foldl, each, rest]
  rfl

/-- Combining the errors and showing them together shows each violation by itself. -/
theorem errorTokens_eq (r : Report) : r.errorTokens E = r.compileErrors := by
  cases r with
  | nil => rfl
  | cons v r =>
      have messages := messages_error? E v r
      cases combined : Report.error? E (v :: r) with
      | none =>
          rw [combined] at messages
          cases messages
      | some e =>
          rw [combined, Option.map_some, Option.some.injEq] at messages
          rw [Report.errorTokens, combined, Option.map_some, Option.getD_some, E.tokens_eq,
            messages, showMessages, List.flatMap_map]
          rfl

end Errors

/-- What the compiler shows for a violation: kind and message, the detail without white space at
its end, and the help, each on lines of its own. -/
inductive Violation.ShownAs (v : Violation) : String → Prop where
  | lines {detail : Option String} :
      Option.Rel Trimmed v.detail detail →
      ShownAs v ("\n".intercalate
        ((v.kind.name ++ ": " ++ v.message)
          :: (detail.toList ++ (v.help.map ("help: " ++ ·)).toList)))

theorem shownAs_compilerText (v : Violation) : v.ShownAs v.compilerText := by
  have trimmed : Option.Rel Trimmed v.detail (v.detail.map trimEnd) := by
    cases v.detail with
    | none => exact .none
    | some detail => exact .some (trimmed_trimEnd detail)
  have shown := Violation.ShownAs.lines trimmed
  suffices same : v.compilerText = _ from same ▸ shown
  have help (text : String) : "\n" ++ ("help: " ++ text) = "\nhelp: " ++ text := by
    rw [← String.append_assoc]
    rfl
  rw [Violation.compilerText, Violation.text]
  cases v.detail <;> cases v.help <;> simp [String.append_assoc, help]

/-! ## The expansion -/

/-- **A rejected trait is reported in full, and nothing is generated for it.**  It stays without
the generator's attributes, and behind it stands one compiler error for each violation, in the
order of the stages, and nothing else. -/
theorem rejection_reported {arguments item : List Token} {t : TraitDecl} {r : Report}
    (E : CompilerErrors) (parses : TraitDecl.ofTokens item = .ok t)
    (rejected : expand t (Context.ofAttribute t arguments) = .error r) :
    ∃ t' texts, t.Strips t' ∧ List.Forall₂ Violation.ShownAs r texts ∧ texts ≠ [] ∧
      r.errorTokens E = texts.flatMap compileError ∧
      expandAttribute arguments item = t'.tokens ++ r.errorTokens E ∧
      ∃ built shape methods numbers,
        t.Stages (Context.ofAttribute t arguments) built shape methods numbers ∧
        r = built ++ shape ++ methods.flatten ++ numbers := by
  have shown : List.Forall₂ Violation.ShownAs r (r.map Violation.compilerText) :=
    List.forall₂_map_right_iff.mpr (List.forall₂_same.mpr fun v _ => shownAs_compilerText v)
  have broken : r.map Violation.compilerText ≠ [] :=
    mt List.map_eq_nil_iff.mp (ne_nil_of_expand rejected)
  refine ⟨t.stripped, r.map Violation.compilerText, strips_stripped t, shown, broken, ?_, ?_, ?_⟩
  · rw [errorTokens_eq, Report.compileErrors, List.flatMap_map]
  · rw [errorTokens_eq, expandAttribute, parses]
    simp only [rejected]
  · rw [report_of_expand rejected]
    exact report_staged t _

namespace Sample

def errors : CompilerErrors where
  Error := List (Place × String)
  single place text := [(place, text)]
  combine e e' := e ++ e'
  tokens := showMessages
  messages e := e
  messages_single _ _ := rfl
  messages_combine _ _ := rfl
  tokens_eq _ := rfl

/-- A trait with a supertrait, two methods with one event id, an unknown placeholder in the second of
them, and a method without a message. -/
def rejectedItem : String :=
  "trait IUp: Base \x7b "
    ++ "#[logger_message(1, Information, \"up\")] fn up(&self); "
    ++ "#[log::logger_message(1, Error, \"down: \x7bport\x7d\")] fn down(&self); "
    ++ "fn off(&self); \x7d"

end Sample

theorem rejection_reported_sample :
    ∃ item t r, Token.ofSource Sample.rejectedItem = .ok item ∧ TraitDecl.ofTokens item = .ok t ∧
      expand t (Context.ofAttribute t (Token.stringLiteral "1")) = .error r ∧
      r.map (·.kind) = [.invalidAttribute, .invalidMethodShape, .invalidInterfaceShape,
        .unknownPlaceholder, .duplicateEventId] ∧
      ∃ t' texts, t.Strips t' ∧ List.Forall₂ Violation.ShownAs r texts ∧ texts ≠ [] ∧
        r.errorTokens Sample.errors = texts.flatMap compileError ∧
        expandAttribute (Token.stringLiteral "1") item
          = t'.tokens ++ r.errorTokens Sample.errors ∧
        ∃ built shape methods numbers,
          t.Stages (Context.ofAttribute t (Token.stringLiteral "1")) built shape methods numbers ∧
          r = built ++ shape ++ methods.flatten ++ numbers := by
  have kinds : ((Token.ofSource Sample.rejectedItem).toOption.bind fun item =>
      (TraitDecl.ofTokens item).toOption.map fun t =>
        (violationsOf (expand t (Context.ofAttribute t (Token.stringLiteral "1")))).map (·.kind))
      = some [.invalidAttribute, .invalidMethodShape, .invalidInterfaceShape, .unknownPlaceholder,
        .duplicateEventId] := by decide +kernel
  obtain ⟨item, read, parsed⟩ := Option.bind_eq_some_iff.mp kinds
  obtain ⟨t, parses, kinds⟩ := Option.map_eq_some_iff.mp parsed
  cases rejected : expand t (Context.ofAttribute t (Token.stringLiteral "1")) with
  | ok e =>
      rw [rejected] at kinds
      cases kinds
  | error r =>
      rw [rejected] at kinds
      exact ⟨item, t, r, ok_of_toOption read, ok_of_toOption parses, rejected, kinds,
        rejection_reported Sample.errors (ok_of_toOption parses) rejected⟩

end LogInterface
