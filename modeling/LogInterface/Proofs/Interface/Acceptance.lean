/-
# Proofs.Interface.Acceptance -- which traits are logging interfaces

A trait is expanded in two stages.  The description reads the attributes and the
templates, and drops what it cannot read; the rules judge what was described.
`TraitDecl.IsLogging` says in one place what a logging interface is, of the
declaration alone, and `expand_accepts_iff` that exactly these traits are
accepted.

A method that was described passes its rules exactly if it is a log method
(`isLogging_of_describe`), so for a trait whose methods were all described the two
stages come together method by method (`forall_isLogging`).
-/
import LogInterface.Companion.Expansion
import LogInterface.Proofs.Interface.Rules

namespace LogInterface

set_option autoImplicit false

/-! ## Logging interfaces -/

/-- A log method with these arguments; `into` is the name of the method that wraps
a logger. -/
structure Method.IsLogging (m : Method) (into : Ident) (args : MessageArguments) : Prop where
  message : ∃ a, m.attributes.filter Attribute.isMessage = [a] ∧
    MessageArguments.ofTokens a.arguments = .ok args
  /-- Every placeholder is closed. -/
  closed : (Template.read args.message.value.toList).unclosed = none
  /-- Every placeholder names a parameter. -/
  bound : ∀ name ∈ Template.holes args.message.value, ∃ i ∈ m.signature.idents, i.name = name
  distinct : m.signature.name.name ≠ into.text
  signature : m.signature.IsLogging
  bodyless : m.body = none

structure TraitDecl.IsLogging (t : TraitDecl) (cx : Context) : Prop where
  ungeneric : t.generics.params = []
  clauseless : t.clause = none
  unnested : cx.nested = false
  single : cx.triggers ≤ 1
  root : t.supertraits = []
  unqualified : t.unsafety = none ∧ t.auto = none
  native : ∀ i ∈ t.items, ∃ m, i = .method m
  /-- Its companion has a name of its own, and with this name every method is a log
  method with an event id of its own. -/
  companion : ∃ companion, cx.Names t.name companion ∧
    companion.text ≠ t.name.text ∧ (Naming.extensionTrait companion).text ≠ t.name.text ∧
    ∃ arguments, List.Forall₂ (Method.IsLogging · (Naming.intoCompanion companion) ·)
      t.methods arguments ∧ (arguments.map (·.event.value)).Nodup

/-! ## Methods -/

def LogMethod.arguments (l : LogMethod) : MessageArguments := ⟨l.event, l.level, l.message⟩

theorem isLogging_of_carries {m : Method} {into : Ident} {args : MessageArguments}
    {segments : List Segment} (carries : m.Carries args segments) :
    m.IsLogging into args ↔ (LogMethod.bind m args segments).violations into = [] := by
  rw [violations_bind, Template.names_of_parse carries.parsed]
  constructor
  · intro logging
    exact ⟨⟨logging.distinct, logging.signature, logging.bodyless⟩, logging.bound⟩
  · rintro ⟨⟨distinct, signature, bodyless⟩, bound⟩
    exact ⟨carries.single, Template.closed_of_parse carries.parsed, bound, distinct, signature,
      bodyless⟩

theorem Method.IsLogging.carries {m : Method} {into : Ident} {args : MessageArguments}
    (logging : m.IsLogging into args) : ∃ segments, m.Carries args segments :=
  ⟨_, logging.message, Template.parse_of_closed logging.closed⟩

theorem Method.IsLogging.described {m : Method} {into : Ident} {args : MessageArguments}
    (logging : m.IsLogging into args) : ∃ l, m.describe = .ok l := by
  obtain ⟨segments, carries⟩ := logging.carries
  exact ⟨_, describe_ok_iff.mpr ⟨args, segments, carries, rfl⟩⟩

/-- A method that was described is a log method exactly if no rule speaks against
it, and with no other arguments. -/
theorem isLogging_of_describe {m : Method} {l : LogMethod} (described : m.describe = .ok l)
    {into : Ident} {args : MessageArguments} :
    m.IsLogging into args ↔ args = l.arguments ∧ l.violations into = [] := by
  obtain ⟨args', segments, carries, rfl⟩ := describe_ok_iff.mp described
  constructor
  · intro logging
    obtain ⟨_, carries'⟩ := logging.carries
    obtain ⟨rfl, rfl⟩ := carries'.unique carries
    exact ⟨rfl, (isLogging_of_carries carries).mp logging⟩
  · rintro ⟨rfl, silent⟩
    exact (isLogging_of_carries carries).mpr silent

theorem forall_isLogging {ms : List Method} {ls : List LogMethod}
    (described : List.Forall₂ (fun m l => m.describe = .ok l) ms ls) {into : Ident}
    {arguments : List MessageArguments} :
    List.Forall₂ (Method.IsLogging · into ·) ms arguments ↔
      arguments = ls.map LogMethod.arguments ∧ ∀ l ∈ ls, l.violations into = [] := by
  induction described generalizing arguments with
  | nil => simp
  | @cons m l ms ls first _ ih =>
      cases arguments with
      | nil => simp
      | cons args arguments =>
          rw [List.forall₂_cons, ih, isLogging_of_describe first, List.map_cons, List.cons_eq_cons,
            List.forall_mem_cons]
          exact and_and_and_comm

/-! ## The trait -/

theorem expand_ok_iff {t : TraitDecl} {cx : Context} :
    (∃ e, expand t cx = .ok e) ↔ (t.describe cx).2 = [] ∧ (t.describe cx).1.validate = [] := by
  rw [← List.append_eq_nil_iff, ← List.isEmpty_iff]
  show (∃ e, (t.examine cx).expansion t = .ok e) ↔ (t.examine cx).report.isEmpty
  rw [Examined.expansion]
  split
  · rename_i silent
    simp [silent]
  · rename_i found
    simp [found]

/-- What is rejected is rejected with a reason. -/
theorem expand_error_iff {t : TraitDecl} {cx : Context} :
    (∃ r, r ≠ [] ∧ expand t cx = .error r) ↔ ¬∃ e, expand t cx = .ok e := by
  show (∃ r, r ≠ [] ∧ (t.examine cx).expansion t = .error r)
    ↔ ¬∃ e, (t.examine cx).expansion t = .ok e
  rw [Examined.expansion]
  split
  · simp
  · rename_i found
    simpa using found

theorem ne_nil_of_expand {t : TraitDecl} {cx : Context} {r : Report}
    (rejected : expand t cx = .error r) : r ≠ [] := by
  obtain ⟨r', broken, rejected'⟩ : ∃ r', r' ≠ [] ∧ expand t cx = .error r' :=
    expand_error_iff.mpr fun ⟨e, accepted⟩ => nomatch rejected.symm.trans accepted
  cases rejected.symm.trans rejected'
  exact broken

theorem foreign_eq_nil {items : List TraitItem} :
    items.filterMap TraitItem.foreign? = [] ↔ ∀ i ∈ items, ∃ m, i = .method m := by
  rw [List.filterMap_eq_nil_iff]
  refine forall₂_congr fun i _ => ?_
  cases i <;> simp [TraitItem.foreign?]

/-- The rules for a trait, as conditions on its declaration. -/
theorem hasShape_describe {t : TraitDecl} {cx : Context} {companion : Ident}
    (named : cx.Names t.name companion) :
    (t.describe cx).1.HasShape ↔
      (t.generics.params = [] ∧ t.clause = none ∧ cx.nested = false ∧ cx.triggers ≤ 1
        ∧ t.supertraits = [] ∧ (t.unsafety = none ∧ t.auto = none)
        ∧ ∀ i ∈ t.items, ∃ m, i = .method m)
      ∧ companion.text ≠ t.name.text ∧ (Naming.extensionTrait companion).text ≠ t.name.text := by
  rw [← foreign_eq_nil, ← describeItems_foreign, ← describe_companion named]
  have supertraits : (t.describe cx).1.supertraits = [] ↔ t.supertraits = [] :=
    List.map_eq_nil_iff
  have qualifiers : (t.describe cx).1.qualifiers = []
      ↔ t.unsafety = none ∧ t.auto = none := by
    show t.unsafety.toList ++ t.auto.toList = [] ↔ _
    simp
  constructor
  · rintro ⟨ungeneric, clauseless, unnested, single, root, unqualified, native, distinct⟩
    exact ⟨⟨ungeneric, clauseless, unnested, single, supertraits.mp root,
      qualifiers.mp unqualified, native⟩, distinct⟩
  · rintro ⟨⟨ungeneric, clauseless, unnested, single, root, unqualified, native⟩, distinct⟩
    exact ⟨ungeneric, clauseless, unnested, single, supertraits.mpr root,
      qualifiers.mpr unqualified, native, distinct⟩

theorem silent_iff_isLogging {t : TraitDecl} {cx : Context} :
    (t.describe cx).2 = [] ∧ (t.describe cx).1.validate = [] ↔ t.IsLogging cx := by
  rw [describe_report, validate_eq_nil]
  constructor
  · rintro ⟨⟨⟨companion, named⟩, described⟩, shape, methods, ids⟩
    obtain ⟨⟨ungeneric, clauseless, unnested, single, root, unqualified, native⟩, distinct⟩ :=
      (hasShape_describe named).mp shape
    rw [describe_companion named] at methods
    -- Nothing was dropped, so the rules spoke of every method of the trait.
    have matched := describeItems_forall (describeItems_violations.mpr described)
    refine ⟨ungeneric, clauseless, unnested, single, root, unqualified, native, companion, named,
      distinct.1, distinct.2, _, (forall_isLogging matched).mpr ⟨rfl, methods⟩, ?_⟩
    rw [List.map_map]
    exact ids
  · rintro ⟨ungeneric, clauseless, unnested, single, root, unqualified, native, companion, named,
      distinct, distinctExt, arguments, methods, ids⟩
    have described : ∀ m ∈ t.methods, ∃ l, m.describe = .ok l :=
      ((List.forall₂_and_left _ _).mp (methods.imp fun _ _ logging => ⟨logging.described, logging⟩)).1
    have matched := describeItems_forall (describeItems_violations.mpr described)
    obtain ⟨rfl, silent⟩ := (forall_isLogging matched).mp methods
    refine ⟨⟨⟨companion, named⟩, described⟩, (hasShape_describe named).mpr
      ⟨⟨ungeneric, clauseless, unnested, single, root, unqualified, native⟩, distinct,
        distinctExt⟩, ?_, ?_⟩
    · rw [describe_companion named]
      exact silent
    · rw [List.map_map] at ids
      exact ids

/-- What an accepted trait is expanded to: the companion of its description, in
which every method stands in its place and is a log method. -/
theorem methods_of_expand {t : TraitDecl} {cx : Context} {e : Expansion}
    (accepted : expand t cx = .ok e) :
    e.companion = (t.describe cx).1.companionItems ∧
      List.Forall₂ (fun m l => m.describe = .ok l ∧
          m.IsLogging (Naming.intoCompanion e.companion.name) l.arguments)
        t.methods (t.describe cx).1.methods := by
  have answer : e.companion = (t.describe cx).1.companionItems := by
    change (t.examine cx).expansion t = .ok e at accepted
    rw [Examined.expansion] at accepted
    split at accepted
    · cases accepted
      rfl
    · cases accepted
  obtain ⟨built, found⟩ := expand_ok_iff.mp ⟨e, accepted⟩
  have described := describeItems_forall (describeItems_violations.mpr (describe_report.mp built).2)
  have logging := (forall_isLogging described).mpr ⟨rfl, (validate_eq_nil.mp found).2.1⟩
  rw [answer]
  exact ⟨rfl, described.mp (fun _ _ one other => ⟨one, other⟩)
    (List.forall₂_map_right_iff.mp logging)⟩

/-- What is made of every log method that its method describes is made of every
method of an accepted trait, in the same order. -/
theorem forall_of_expand {t : TraitDecl} {cx : Context} {e : Expansion}
    (accepted : expand t cx = .ok e) {α : Type} {make : LogMethod → α} {holds : Method → α → Prop}
    (each : ∀ (m : Method) (into : Ident) (args : MessageArguments) (segments : List Segment),
      m.Carries args segments → m.IsLogging into args →
        holds m (make (LogMethod.bind m args segments))) :
    List.Forall₂ holds t.methods ((t.describe cx).1.methods.map make) := by
  refine List.forall₂_map_right_iff.mpr ((methods_of_expand accepted).2.imp ?_)
  rintro m l ⟨described, logging⟩
  obtain ⟨args, segments, carries, rfl⟩ := describe_ok_iff.mp described
  exact each m _ args segments carries logging

theorem expand_ok_iff_isLogging {t : TraitDecl} {cx : Context} :
    (∃ e, expand t cx = .ok e) ↔ t.IsLogging cx :=
  expand_ok_iff.trans silent_iff_isLogging

/-- **Exactly the logging interfaces are accepted**, and every other trait is
rejected with at least one violation. -/
theorem expand_accepts_iff (t : TraitDecl) (cx : Context) :
    ((∃ e, expand t cx = .ok e) ↔ t.IsLogging cx) ∧
      ((∃ r, r ≠ [] ∧ expand t cx = .error r) ↔ ¬t.IsLogging cx) :=
  ⟨expand_ok_iff_isLogging, expand_error_iff.trans (not_congr expand_ok_iff_isLogging)⟩

/-! ## A small interface -/

/-- An answer that can be computed to be no failure is a value. -/
theorem exists_ok_of_isOk {ε α : Type} {x : Except ε α} (isOk : x.isOk = true) :
    ∃ a, x = .ok a := by
  cases x with
  | ok a => exact ⟨a, rfl⟩
  | error e => cases isOk

theorem ok_of_toOption {ε α : Type} {x : Except ε α} {a : α} (answered : x.toOption = some a) :
    x = .ok a := by
  cases x with
  | ok b => exact congrArg Except.ok (Option.some.inj answered)
  | error e => cases answered

namespace Sample

/-- The attribute of a method that logs at the level `Information`. -/
def message (number template : String) : Attribute :=
  { inner := false
    place := .nowhere
    rooted := false
    path := [⟨"logger_message", .nowhere⟩]
    input := .list .parenthesis
      ([.literal number .nowhere] ++ Token.operator "," ++ [.word "Information"]
        ++ Token.operator "," ++ Token.stringLiteral template)
      .nowhere .nowhere }

def parameter (name type : String) : Input :=
  .typed [⟨false, .nowhere, false, [⟨"cfg", .nowhere⟩], .nothing⟩] (.name ⟨name, .nowhere⟩)
    (.node .pathType [.node .path [.node .segment [.token (.word type), .absent]]])

/-- A method that takes `&self` and parameters. -/
def method (name : String) (message : Attribute) (parameters : List Input) : Method :=
  { attributes := [message]
    signature :=
      { constness := none
        asyncness := none
        unsafety := none
        abi := none
        keyword := .nowhere
        name := ⟨name, .nowhere⟩
        generics := ⟨[], false⟩
        inputs := .receiver ⟨[], some .nowhere, .absent, none, .nowhere, none⟩ :: parameters
        trailing := false
        variadic := none
        output := none
        clause := none }
    body := none }

/-- A trait with two methods.  The first template has a placeholder between doubled
braces, one in front of a lone closing brace, and one name twice. -/
def interface : TraitDecl :=
  { attributes := []
    visibility := .absent
    unsafety := none
    auto := none
    keyword := .nowhere
    name := ⟨"IServer", .nowhere⟩
    generics := ⟨[], false⟩
    supertraits := []
    trailingPlus := false
    clause := none
    items :=
      [.method (method "listening"
        (message "7" "\x7b\x7b\x7bport\x7d\x7d\x7d at \x7bhost\x7d\x7d:\x7bport\x7d")
        [parameter "host" "Host", parameter "r#port" "Port"]),
       .method (method "stopped" (message "8" "") [])] }

/-- How an annotation without arguments finds the trait. -/
def context : Context := ⟨[], false, 1, defaultRuntime⟩

theorem accepted : ∃ e, expand interface context = .ok e :=
  exists_ok_of_isOk (by decide +kernel)

end Sample

end LogInterface
