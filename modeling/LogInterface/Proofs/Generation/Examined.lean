/-
# Proofs.Generation.Examined -- every annotated trait is examined, with one exception

The generator meets the annotated traits of a file in two ways.  One at the top is
expanded, and its expansion enters the answer (`TraitDecl.Enters`).  Any other item is
walked over, and each annotated trait that occurs in it, at any depth, is reported as
nested (`TraitDecl.ReportedNested`).

The walk leaves out one place: it does not look inside an annotated trait at the top.
So the traits that are reported as nested are exactly those inside all other items
(`generate_nesting`), and a trait inside an interface passes unseen into every copy
of the signature it stands in.  A file without such traits is `Flat`, and what is
generated from it holds no annotated trait anywhere: `annotated_traits_examined`.
-/
import LogInterface.Proofs.Generation.Rebuilt
import LogInterface.Proofs.Interface.Report

namespace LogInterface

set_option autoImplicit false

/-! ## Nested traits -/

/-- The violation of an annotated trait inside another item. -/
def TraitDecl.nestedViolation (t : TraitDecl) : Violation :=
  { kind := .invalidInterfaceShape
    interface := t.name.text
    message := "logging trait " ++ t.name.quoted ++ " must not be nested in another item"
    help := some "declare the trait at the top level of the file"
    place := t.name.place }

/-- A trait is reported as nested exactly if it was found inside another item. -/
theorem expand_nesting (t : TraitDecl) (cx : Context) :
    (violationsOf (expand t cx)).on .nesting = if cx.nested then [t.nestedViolation] else [] := by
  have rule : (t.describe cx).1.nestingViolations.map (Violation.of t.name)
      = (violationIf cx.nested { t.nestedViolation with interface := "" }).map
        (Violation.of t.name) := rfl
  rw [violationsOf_expand, report_nesting, rule]
  cases cx.nested <;> rfl

/-- Is the item an annotated trait? -/
def Tree.isInterface : Tree → Bool
  | .trait t => t.isAnnotated
  | _ => false

/-- The annotated traits that occur in items which are none themselves. -/
def SourceFile.nestedTraits (f : SourceFile) : List TraitDecl :=
  f.items.flatMap fun item => if item.isInterface then [] else item.annotatedTraits

theorem isInterface_of_found {settings : Settings} {nested : Bool} {t : TraitDecl} {cx : Context}
    (found : t.Found settings nested cx) : (Tree.trait t).isInterface = true :=
  (found_iff.mp found).1

theorem isInterface_of_unannotated {item : Tree}
    (unannotated : ∀ t, item = .trait t → t.annotations = []) : item.isInterface = false := by
  unfold Tree.isInterface
  split
  · exact isAnnotated_eq_false.mpr (unannotated _ rfl)
  · rfl

theorem nesting_of_expansions {settings : Settings} {ts : List TraitDecl} {rs : List Report}
    (expanded : List.Forall₂ (fun t r => ∃ cx, t.Found settings true cx ∧ expand t cx = .error r)
      ts rs) : Report.on rs.flatten .nesting = ts.map TraitDecl.nestedViolation := by
  induction expanded with
  | nil => rfl
  | @cons t r ts rs first _ ih =>
      obtain ⟨cx, found, rejected⟩ := first
      have one := expand_nesting t cx
      obtain ⟨annotations⟩ := found
      rw [rejected] at one
      rw [List.flatten_cons, Report.on_append, ih, List.map_cons]
      exact congrArg (· ++ ts.map TraitDecl.nestedViolation) one

/-- What an item contributes about nesting: one violation for each annotated trait inside,
and nothing if the item is annotated itself. -/
theorem nesting_of_contributes {settings : Settings} {item : Tree} {c : Contribution}
    (contributes : Contributes settings item c) :
    c.violations.on .nesting = (if item.isInterface then [] else item.annotatedTraits).map
      TraitDecl.nestedViolation := by
  cases contributes with
  | accepted found accepted =>
      rw [if_pos (isInterface_of_found found)]
      rfl
  | @rejected t cx r found rejected =>
      have topLevel : (violationsOf (expand t cx)).on .nesting = [] := by
        obtain ⟨annotations⟩ := found
        exact expand_nesting t _
      rw [if_pos (isInterface_of_found found)]
      rwa [rejected] at topLevel
  | kept unannotated inside =>
      rw [isInterface_of_unannotated unannotated]
      exact nesting_of_expansions inside

/-! ## Answers -/

theorem violationsOf_map {α β : Type} (make : α → β) (answer : Except Report α) :
    violationsOf (answer.map make) = violationsOf answer := by
  cases answer <;> rfl

theorem printed_nesting (f : SourceFile) (settings : Settings) (items : List Token) :
    (violationsOf (f.printed settings items)).on .nesting = [] := by
  rw [SourceFile.printed]
  split <;> rfl

/-- **The traits that are reported as nested** are the annotated ones inside the items
that are not annotated themselves, each of them once and in the order of reading. -/
theorem generate_nesting (f : SourceFile) (settings : Settings) :
    (violationsOf (f.generate settings)).on .nesting
      = f.nestedTraits.map TraitDecl.nestedViolation := by
  obtain ⟨cs, contribute, answer⟩ := generate_contributions f settings
  have nesting : Report.on (cs.flatMap Contribution.violations) .nesting
      = f.nestedTraits.map TraitDecl.nestedViolation := by
    clear answer
    rw [SourceFile.nestedTraits, Report.on_flatMap]
    generalize f.items = items at contribute ⊢
    induction contribute with
    | nil => rfl
    | cons first _ ih =>
        rw [List.flatMap_cons, ih, List.flatMap_cons, List.map_append, nesting_of_contributes first]
  rw [answer]
  split
  · rename_i silent
    rw [List.isEmpty_iff.mp silent] at nesting
    rw [violationsOf_map, printed_nesting, ← nesting]
    rfl
  · exact nesting

/-! ## Every annotated trait -/

/-- The expansion of a trait enters the answer: the names and the notes of its companion
if it is accepted and a file is generated, and everything that is wrong with it if not. -/
inductive TraitDecl.Enters (settings : Settings) (t : TraitDecl)
    (answer : Except Report Generated) : Prop where
  | accepted {cx : Context} {e : Expansion} :
      t.Found settings false cx → expand t cx = .ok e →
      (∀ g, answer = .ok g →
        [⟨t.name, e.companion.name⟩] <:+: g.interfaces ∧ e.notes <:+: g.notes) →
      Enters settings t answer
  | rejected {cx : Context} {r all : Report} :
      t.Found settings false cx → expand t cx = .error r → r ≠ [] →
      answer = .error all → r <:+: all → Enters settings t answer

/-- The trait is reported for being nested in another item. -/
def TraitDecl.ReportedNested (t : TraitDecl) (answer : Except Report Generated) : Prop :=
  ∃ all, answer = .error all ∧ t.nestedViolation ∈ all

/-- The trait stands inside an item that is an annotated trait itself. -/
def TraitDecl.InsideInterface (d : TraitDecl) (item : Tree) : Prop :=
  ∃ t, item = .trait t ∧ t.isAnnotated = true ∧ ∃ u ∈ item.parts, (Tree.trait d).Occurs u

theorem infix_flatMap {α β : Type} (f : α → List β) {xs : List α} {x : α} (member : x ∈ xs) :
    f x <:+: xs.flatMap f :=
  List.flatMap_def ▸ List.infix_of_mem_flatten (List.mem_map_of_mem member)

theorem contributes_of_ok {settings : Settings} {t : TraitDecl} {cx : Context} {e : Expansion}
    {c : Contribution} (found : t.Found settings false cx) (accepted : expand t cx = .ok e)
    (contributes : Contributes settings (.trait t) c) : c = .interface t e := by
  obtain ⟨annotated, rfl⟩ := found_iff.mp found
  cases contributes with
  | accepted found' accepted' =>
      obtain ⟨-, rfl⟩ := found_iff.mp found'
      cases accepted.symm.trans accepted'
      rfl
  | rejected found' rejected =>
      obtain ⟨-, rfl⟩ := found_iff.mp found'
      cases accepted.symm.trans rejected
  | kept unannotated =>
      cases annotated.symm.trans (isAnnotated_eq_false.mpr (unannotated t rfl))

theorem contributes_of_error {settings : Settings} {t : TraitDecl} {cx : Context} {r : Report}
    {c : Contribution} (found : t.Found settings false cx) (rejected : expand t cx = .error r)
    (contributes : Contributes settings (.trait t) c) : c = .rejected r := by
  obtain ⟨annotated, rfl⟩ := found_iff.mp found
  cases contributes with
  | accepted found' accepted =>
      obtain ⟨-, rfl⟩ := found_iff.mp found'
      cases rejected.symm.trans accepted
  | rejected found' rejected' =>
      obtain ⟨-, rfl⟩ := found_iff.mp found'
      cases rejected.symm.trans rejected'
      rfl
  | kept unannotated =>
      cases annotated.symm.trans (isAnnotated_eq_false.mpr (unannotated t rfl))

/-- An annotated trait at the top enters the answer. -/
theorem enters_of_top {f : SourceFile} {settings : Settings} {t : TraitDecl}
    (top : .trait t ∈ f.items) (annotated : t.isAnnotated = true) :
    t.Enters settings (f.generate settings) := by
  have found : t.Found settings false (settings.context false t) := found_iff.mpr ⟨annotated, rfl⟩
  match expanded : expand t (settings.context false t) with
  | .ok e =>
      refine .accepted found expanded fun g generated => ?_
      obtain ⟨cs, whole, generates⟩ := generates_of_ok generated
      obtain ⟨c, member, contributes⟩ := exists_of_forall₂ generates.contribute.flip _ top
      cases contributes_of_ok found expanded contributes
      rw [generates.interfaces, generates.notes]
      exact ⟨infix_flatMap Contribution.pairs member, infix_flatMap Contribution.notes member⟩
  | .error r =>
      obtain ⟨cs, contribute, answer⟩ := generate_contributions f settings
      obtain ⟨c, member, contributes⟩ := exists_of_forall₂ contribute.flip _ top
      cases contributes_of_error found expanded contributes
      have inside : r <:+: cs.flatMap Contribution.violations :=
        infix_flatMap Contribution.violations member
      have broken : r ≠ [] := ne_nil_of_expand expanded
      refine .rejected found expanded broken ?_ inside
      rw [answer, if_neg]
      intro silent
      rw [List.isEmpty_iff.mp silent] at inside
      exact broken (List.infix_nil.mp inside)

/-- An annotated trait inside an item that is none is reported. -/
theorem reported_of_inside {f : SourceFile} {settings : Settings} {item : Tree} {d : TraitDecl}
    (top : item ∈ f.items) (other : item.isInterface = false) (annotated : d.isAnnotated = true)
    (occurs : (Tree.trait d).Occurs item) : d.ReportedNested (f.generate settings) := by
  have nested : d ∈ f.nestedTraits := by
    refine List.mem_flatMap.mpr ⟨item, top, ?_⟩
    rw [other]
    exact mem_annotatedTraits.mpr ⟨occurs, annotated⟩
  have reported : d.nestedViolation ∈ violationsOf (f.generate settings) := by
    have onNesting := List.mem_map_of_mem (f := TraitDecl.nestedViolation) nested
    rw [← generate_nesting f settings] at onNesting
    exact (List.mem_filter.mp onNesting).1
  match f.generate settings, reported with
  | .error all, reported => exact ⟨all, rfl, reported⟩

/-- How the annotated traits of a file show in the answer to it. -/
structure SourceFile.AllExamined (f : SourceFile) (settings : Settings)
    (answer : Except Report Generated) : Prop where
  /-- At the top a trait enters the answer, elsewhere it is reported, and there is one
  place more where it can be. -/
  examined : ∀ item ∈ f.items, ∀ d, d.isAnnotated = true → (Tree.trait d).Occurs item →
    item = .trait d ∧ d.Enters settings answer ∨ d.ReportedNested answer ∨ d.InsideInterface item
  /-- No other trait is reported as nested. -/
  nested : (violationsOf answer).on .nesting = f.nestedTraits.map TraitDecl.nestedViolation
  /-- If there is no trait in that place, nothing in the new file is annotated. -/
  generated : f.Flat settings → ∀ g, answer = .ok g →
    ∃ cs whole, f.Generates settings cs whole g ∧ (f.rebuilt cs).tokens = f.assembled cs ∧
      ∀ item ∈ (f.rebuilt cs).items, ∀ d, (Tree.trait d).Occurs item → d.isAnnotated = false

/-- **Every annotated trait is examined, unless it stands inside another one.**  At the top
its expansion enters the answer; inside any other item it is reported as nested, and
those are all that are.  Where no interface has another inside, nothing that is
generated holds an annotated trait. -/
theorem annotated_traits_examined {source : String} {f : SourceFile}
    (parses : SourceFile.ofSource source = .ok f) (settings : Settings) :
    f.AllExamined settings (generate source settings) := by
  rw [generate_parsed parses]
  refine ⟨fun item top d annotated occurs => ?examined, generate_nesting f settings,
    fun flat g generated => ?generated⟩
  case examined =>
    cases interface : item.isInterface with
    | false => exact .inr (.inl (reported_of_inside top interface annotated occurs))
    | true =>
        match item, interface with
        | .trait t, isAnnotated =>
            cases occurs with
            | here => exact .inl ⟨rfl, enters_of_top top isAnnotated⟩
            | inPart part below => exact .inr (.inr ⟨t, rfl, isAnnotated, _, part, below⟩)
  case generated =>
    obtain ⟨cs, whole, generates⟩ := generates_of_ok generated
    exact ⟨cs, whole, generates, rebuilt_tokens parses generates.contribute,
      rebuilt_free flat generates.contribute generates.silent⟩

theorem annotated_traits_examined_sample :
    ∃ f, SourceFile.ofSource Sample.file = .ok f ∧ f.AllExamined {} (generate Sample.file {}) := by
  obtain ⟨f, parses⟩ := Sample.file_parses
  exact ⟨f, parses, annotated_traits_examined parses {}⟩

namespace Sample

/-- A file with an interface inside the type of a parameter of another. -/
def inner : String :=
  "#[logger_extensions] trait IApp \x7b #[logger_message(1, Information, \"x\")] "
    ++ "fn x(&self, a: [u8; \x7b #[logger_extensions] trait IIn \x7b\x7d 0 \x7d]); \x7d"

/-- Is there an annotated trait of this name inside an interface, also when that is
stripped, and none at the top or inside another item? -/
def hides (name : String) (f : SourceFile) : Bool :=
  f.nestedTraits.isEmpty
    && f.items.any (fun item =>
      match item with
      | .trait t =>
          t.isAnnotated && (Tree.trait t.stripped).annotatedTraits.any (·.name.text == name)
      | _ => false)
    && f.items.all fun item =>
      match item with
      | .trait t => t.name.text != name
      | _ => true

theorem exists_of_hides {name : String} {f : SourceFile} (hides : Sample.hides name f = true) :
    f.nestedTraits = [] ∧ ∃ t d : TraitDecl, .trait t ∈ f.items ∧ t.isAnnotated = true ∧
      d ∈ (Tree.trait t.stripped).annotatedTraits ∧ .trait d ∉ f.items := by
  simp only [Sample.hides, Bool.and_eq_true, List.any_eq_true, List.all_eq_true,
    List.isEmpty_iff] at hides
  obtain ⟨⟨none, item, top, holds⟩, others⟩ := hides
  match item, top, holds with
  | .trait t, top, holds =>
      simp only [Bool.and_eq_true, List.any_eq_true, beq_iff_eq] at holds
      obtain ⟨annotated, d, inside, isName⟩ := holds
      refine ⟨none, t, d, top, annotated, inside, fun isTop => ?_⟩
      have other := others _ isTop
      simp [isName] at other

theorem inner_hides : ∃ f, SourceFile.ofSource inner = .ok f ∧ hides "IIn" f = true :=
  exists_file_of_check inner (hides "IIn") String.ofList_append.symm (by decide +kernel)

end Sample

/-- The trait inside the interface is neither at the top nor reported. -/
theorem inner_interface_unseen :
    ∃ f, SourceFile.ofSource Sample.inner = .ok f ∧ ∃ item ∈ f.items, ∃ d : TraitDecl,
      d.isAnnotated = true ∧ (Tree.trait d).Occurs item ∧ .trait d ∉ f.items ∧
        ¬d.ReportedNested (generate Sample.inner {}) := by
  obtain ⟨f, parses, hides⟩ := Sample.inner_hides
  obtain ⟨none, t, d, top, -, left, notTop⟩ := Sample.exists_of_hides hides
  obtain ⟨occurs, annotated⟩ := mem_annotatedTraits.mp (annotatedTraits_of_stripped left)
  refine ⟨f, parses, _, top, d, annotated, occurs, notTop, ?_⟩
  rintro ⟨all, rejected, reported⟩
  have nesting : Report.on all .nesting = [] := by
    have answer := generate_nesting f {}
    rwa [← generate_parsed parses, rejected, none] at answer
  have onNesting : d.nestedViolation ∈ Report.on all .nesting :=
    List.mem_filter.mpr ⟨reported, rfl⟩
  rw [nesting] at onNesting
  cases onNesting

end LogInterface
