/-
# Proofs.Generation.Legal -- what is generated is legal source

The companion of an accepted trait is read as a file of items unless it is called `Self`, which is
no name for a struct (`generated_names`).  What is generated around the parts of the trait needs no
assumption.  What is copied has to be legal where it is put, and nothing else is asked of a trait:
its visibility, the documentation of its methods, and their signatures in front of a block
(`TraitDecl.IsReadable`).  The path of the runtime crate is copied too, and rerooted, which leaves
it a path (`ModulePath.isPath_nested`).

A text fixes how deep the grammar for it nests.  A part of a text has fewer tokens, so what is read
by a grammar for the part is read by the grammar for the whole (`countAll_extension`).
-/
import LogInterface.Proofs.Companion.ReadsCompanion
import LogInterface.Proofs.Companion.Rerooting
import LogInterface.Proofs.Generation.Names
import LogInterface.Proofs.Interface.ExtensionArguments

namespace LogInterface

open Token
open LogInterface.Parser hiding operator word literal name fieldValue

set_option autoImplicit false

variable {n : Nat}

/-! ## Paths of modules -/

namespace ModulePath

theorem moreTrees_written (first : Ident) (more : List (Place × Ident))
    (plain : ∀ w ∈ first.text :: more.map fun s => s.2.text, IsSegment w) :
    WrittenSegments (first :: more.map Prod.snd) (first.token :: treesTokens (moreTrees more)) := by
  obtain ⟨segment, others⟩ := List.forall_mem_cons.mp plain
  clear plain
  induction more generalizing first with
  | nil => exact .last segment
  | cons s more ih =>
      obtain ⟨next, others⟩ := List.forall_mem_cons.mp others
      exact .cons segment (ih s.2 next others)

theorem isPath_tree {p : ModulePath} (plain : ∀ w ∈ p.route.words, IsSegment w) :
    IsPath p.tree.tokens := by
  obtain ⟨root, first, more⟩ := p
  have written := moreTrees_written first more plain
  cases root with
  | none => exact ⟨_, .relative written⟩
  | some place => exact ⟨_, .rooted written⟩

theorem isPath_above {more : List (Place × Ident)}
    (plain : ∀ w ∈ more.map fun s => s.2.text, IsSegment w) : IsPath (above more).tree.tokens :=
  have outer : IsSegment "super" := .inr (by decide)
  isPath_tree (List.forall_mem_cons.mpr ⟨outer, List.forall_mem_cons.mpr ⟨outer, plain⟩⟩)

/-- What the path becomes two levels below is a path again. -/
theorem isPath_nested {p : ModulePath} (plain : ∀ w ∈ p.route.words, IsSegment w) :
    IsPath (nestedRuntime p.tree).1 := by
  obtain ⟨root, first, more⟩ := p
  cases root with
  | some place =>
      rw [nestedRuntime_rooted rfl]
      exact isPath_tree plain
  | none =>
      rw [nestedRuntime_relative]
      split
      · exact isPath_tree plain
      split
      · refine isPath_above ?_
        rw [unread, List.map_map]
        exact (List.forall_mem_cons.mp plain).2
      split
      · exact isPath_above plain
      · exact isPath_tree plain

end ModulePath

/-- The tree is the path of a module. -/
def Tree.IsModulePath (t : Tree) : Prop :=
  ∃ p : ModulePath, t = p.tree ∧ ∀ w ∈ p.route.words, IsSegment w

theorem isModulePath_default : defaultRuntime.IsModulePath :=
  ⟨⟨some .nowhere, ⟨"typed_logging", .nowhere⟩, []⟩, rfl,
    List.forall_mem_singleton.mpr (.inl (by decide))⟩

theorem segments_of_written {is : List Ident} {ts : List Token} (written : WrittenSegments is ts) :
    ∀ i ∈ is, IsSegment i.text := by
  induction written with
  | last segment => exact List.forall_mem_singleton.mpr segment
  | cons segment _ ih => exact List.forall_mem_cons.mpr ⟨segment, ih⟩

theorem isModulePath_plain {path : PlainPath} {ts : List Token} (written : path.Written ts)
    (place : Place) : (path.tree place).IsModulePath := by
  obtain ⟨p, same, route⟩ := ModulePath.exists_tree_of_plain written.ne_nil.1 place
  refine ⟨p, same, ?_⟩
  rw [route, List.forall_mem_map]
  cases written with
  | relative written => exact segments_of_written written
  | rooted written => exact segments_of_written written

/-- The path that an annotation names is the path of a module. -/
theorem isModulePath_argument {cx : Context} {t : Tree}
    (named : cx.extensionArguments.1.runtime = some t) : t.IsModulePath := by
  rw [Context.extensionArguments] at named
  cases read : ExtensionArguments.ofTokens cx.arguments with
  | error e =>
      rw [read] at named
      cases named
  | ok args =>
      rw [read] at named
      obtain ⟨s, answered, -⟩ := onAll_ok_iff.mp read
      obtain ⟨as, parts, separated, written, keyed⟩ := written_of_extensionArguments answered
      have collects := (ofTokens_ok_iff ⟨parts, separated, written⟩ keyed).mp read
      have given : t ∈ as.filterMap ExtensionArgument.runtime? := by
        rw [collects.runtime, show args.runtime = some t from named]
        exact List.mem_singleton_self t
      obtain ⟨a, member, same⟩ := List.mem_filterMap.mp given
      obtain ⟨ts, -, own⟩ := exists_of_forall₂ written.flip _ member
      cases own with
      | positional | keyed => cases same
      | plain path | quoted _ _ path _ =>
          cases same
          exact isModulePath_plain path _

theorem isModulePath_of_expand {t : TraitDecl} {cx : Context} {e : Expansion}
    (isPath : cx.runtime.IsModulePath) (accepted : expand t cx = .ok e) :
    e.companion.runtime.IsModulePath := by
  rw [(methods_of_expand accepted).1]
  show (cx.extensionArguments.1.runtime.getD cx.runtime).IsModulePath
  cases named : cx.extensionArguments.1.runtime with
  | none => exact isPath
  | some t => exact isModulePath_argument named

/-! ## Sizes -/

theorem countAll_append (ts us : List Token) :
    countAll (ts ++ us) = countAll ts + countAll us := by
  induction ts with
  | nil => exact (Nat.zero_add _).symm
  | cons t ts ih =>
      rw [List.cons_append, countAll, countAll, ih, Nat.add_assoc]

theorem countAll_le_flatMap {α : Type} {f : α → List Token} {x : α} {xs : List α}
    (member : x ∈ xs) : countAll (f x) ≤ countAll (xs.flatMap f) := by
  obtain ⟨before, behind, rfl⟩ := List.append_of_mem member
  rw [List.flatMap_append, List.flatMap_cons, countAll_append, countAll_append]
  omega

theorem countAll_braces (ts : List Token) : countAll (braces ts) = countAll ts + 1 := by
  show 1 + countAll ts + 0 = _
  omega

/-! ## What a companion copies -/

/-- The depth of the grammar for a text. -/
def depthFor (ts : List Token) : Nat := 6 * countAll ts + 16

/-- What a companion copies from its trait is read again where it stands: the visibility, the
documentation of the methods, and the signatures, which lose the attributes of their inputs and are
followed by a block. -/
structure TraitDecl.IsReadable (t : TraitDecl) : Prop where
  visibility : IsVisibility t.visibility.tokens
  docs : ∀ m ∈ t.methods, ∀ a ∈ m.attributes, a.isDoc = true →
    IsAttribute (depthFor a.tokens) a.tokens
  signatures : ∀ m ∈ t.methods, ∀ g : Grammar, g.Deep (depthFor m.signature.plain.tokens) →
    ∀ content opens closes us,
      (signature g).Reads m.signature.plain.tokens (.group .brace content opens closes :: us)

theorem isSignature_plain {s : Signature} (logging : s.IsLogging)
    (read : ∀ g : Grammar, g.Deep n → ∀ content opens closes us,
      (signature g).Reads s.plain.tokens (.group .brace content opens closes :: us)) :
    IsSignature n s.plain.tokens := by
  obtain ⟨more, starts⟩ : ∃ more, s.plain.tokens = .ident "fn" s.keyword :: more := by
    obtain ⟨constness, asyncness, unsafety, abi⟩ := logging.unqualified
    cases s
    cases constness
    cases asyncness
    cases unsafety
    cases abi
    rw [Signature.plain, Signature.tokens.eq_def]
    exact ⟨_, rfl⟩
  refine ⟨⟨_, _, more, starts, .inl rfl⟩, fun us => ?_, read⟩
  rw [starts]
  rfl

/-- Only fields of a view are written. -/
theorem field_of_writesOf {fields : List Ident} {i : Ident} {segments : List Segment}
    {bindings : List (Option Nat)} (member : .field i ∈ writesOf fields segments bindings) :
    i ∈ fields := by
  have hole {name : String} {binding : Option Nat}
      (same : Write.field i = .ofHole fields name binding) : i ∈ fields := by
    rw [Write.ofHole] at same
    split at same
    · rename_i bound
      obtain ⟨index, -, there⟩ := Option.bind_eq_some_iff.mp bound
      cases same
      exact List.mem_of_getElem? there
    · cases same
  fun_induction writesOf fields segments bindings with
  | case1 => cases member
  | case2 text segments bindings empty ih => exact ih member
  | case3 text segments bindings some ih =>
      exact ih (by simpa using member)
  | case4 name position segments ih =>
      obtain same | member := List.mem_cons.mp member
      · exact hole same
      · exact ih member
  | case5 name position segments binding bindings ih =>
      obtain same | member := List.mem_cons.mp member
      · exact hole same
      · exact ih member

section

variable {t : TraitDecl} {cx : Context} {e : Expansion}

/-- Each method of the extension trait is made of a log method of the trait. -/
theorem exists_method_of_expand (accepted : expand t cx = .ok e) {l : LogMethod}
    (member : l ∈ (t.describe cx).1.methods) : ∃ m ∈ t.methods, m.signature.IsLogging ∧
      l.signature = m.signature ∧ l.docs = m.attributes.filter Attribute.isDoc := by
  obtain ⟨m, isMethod, described, logging⟩ :=
    exists_of_forall₂ (methods_of_expand accepted).2 l member
  obtain ⟨args, segments, -, rfl⟩ := describe_ok_iff.mp described
  exact ⟨m, isMethod, logging.signature, rfl, rfl⟩

theorem countAll_signature (y : ExtensionMethod) (runtime : List Token) (hidden : Ident) :
    countAll y.signature.tokens < countAll (y.tokens runtime hidden) := by
  rw [ExtensionMethod.tokens, countAll_append, countAll_append, countAll_braces]
  omega

theorem countAll_doc {y : ExtensionMethod} {a : Attribute} (member : a ∈ y.docs)
    (runtime : List Token) (hidden : Ident) :
    countAll a.tokens ≤ countAll (y.tokens runtime hidden) := by
  have one := countAll_le_flatMap (f := Attribute.tokens) member
  simp only [ExtensionMethod.tokens, countAll_append]
  omega

/-- A method of the extension trait stands in a block. -/
theorem countAll_extension {c : Companion} {y : ExtensionMethod} (member : y ∈ c.extensions) :
    countAll (y.tokens c.runtime.tokens (Naming.hiddenModule c.name)) < countAll c.tokens := by
  have one := countAll_le_flatMap
    (f := (·.tokens c.runtime.tokens (Naming.hiddenModule c.name))) member
  simp only [Companion.tokens, Companion.extensionTokens, countAll_append, countAll_braces]
  omega

theorem isReadable_of_expand (named : t.IsNamed)
    (readable : t.IsReadable) (isPath : cx.runtime.IsModulePath) (accepted : expand t cx = .ok e)
    (ordinary : ∀ s ∈ e.companion.names, IsName s) :
    e.companion.IsReadable (6 * countAll e.companion.tokens + 15) := by
  obtain ⟨p, runtime, plain⟩ := isModulePath_of_expand isPath accepted
  simp only [Companion.names, List.forall_mem_append, List.forall_mem_flatMap,
    List.forall_mem_map] at ordinary
  obtain ⟨⟨⟨⟨own, modules⟩, extensions⟩, wrappers⟩, events⟩ := ordinary
  have items := (methods_of_expand accepted).1
  have signed (l : LogMethod) (member : l ∈ (t.describe cx).1.methods) :
      IsSignature (6 * countAll e.companion.tokens + 15) l.signature.plain.tokens := by
    have inside : l.extension ∈ e.companion.extensions := by
      rw [items]
      exact List.mem_map_of_mem member
    have less := countAll_extension inside
    have fits := countAll_signature l.extension e.companion.runtime.tokens
      (Naming.hiddenModule e.companion.name)
    obtain ⟨m, isMethod, logging, same, -⟩ := exists_method_of_expand accepted member
    rw [same]
    have small : countAll m.signature.plain.tokens < countAll e.companion.tokens := by
      rw [← same]
      exact Nat.lt_trans fits less
    refine (isSignature_plain logging (readable.signatures m isMethod)).mono ?_
    rw [depthFor]
    omega
  constructor
  case interface =>
    rw [items]
    exact named.name.ordinary
  case own => exact fun i member => (own i member).ordinary
  case modules => exact fun x member s isNamed => (modules x member s isNamed).ordinary
  case extensions => exact fun y member s isNamed => (extensions y member s isNamed).ordinary
  case wrappers => exact fun w member s isNamed => (wrappers w member s isNamed).ordinary
  case events => exact fun i member => (events i member).ordinary
  case visibility =>
    rw [items]
    exact readable.visibility
  case runtime =>
    rw [runtime]
    exact ModulePath.isPath_tree plain
  case nested =>
    rw [runtime]
    exact ModulePath.isPath_nested plain
  case written =>
    rw [items]
    refine List.forall_mem_map.mpr fun l _ i written => field_of_writesOf written
  case docs =>
    intro y member a isDoc
    have less := countAll_extension member
    have fits := countAll_doc isDoc e.companion.runtime.tokens
      (Naming.hiddenModule e.companion.name)
    rw [items] at member
    obtain ⟨l, isDescribed, rfl⟩ := List.mem_map.mp member
    obtain ⟨m, isMethod, -, -, docs⟩ := exists_method_of_expand accepted isDescribed
    rw [show l.extension.docs = m.attributes.filter Attribute.isDoc from docs] at isDoc
    obtain ⟨given, isDoc⟩ := List.mem_filter.mp isDoc
    refine (readable.docs m isMethod a given isDoc).mono ?_
    rw [depthFor]
    omega
  case signatures =>
    intro y member
    rw [items] at member
    obtain ⟨l, isDescribed, rfl⟩ := List.mem_map.mp member
    exact signed l isDescribed
  case wrapped =>
    intro w member
    rw [items] at member
    obtain ⟨l, isDescribed, rfl⟩ := List.mem_map.mp member
    exact signed l isDescribed

/-- The items of a companion are read as a file. -/
theorem ofTokens_of_readable {c : Companion}
    (readable : c.IsReadable (6 * countAll c.tokens + 15)) (laidOut : Bool) :
    ∃ items, SourceFile.ofTokens laidOut c.tokens = .ok ⟨[], items⟩ := by
  obtain ⟨xs, same, each⟩ := readable.isItems (Nat.le_add_left _ _)
  have deep := Grammar.ofDepth_deep laidOut (6 * countAll c.tokens + 16)
  have outer : startsInner (xs.flatten ++ []) = false := by
    rw [List.append_nil]
    exact outer_flatten fun x member => (each x member).outer
  have read : (fileContent (.ofTokens laidOut c.tokens)).ReadsAs xs.flatten []
      fun f => f.attributes = [] := by
    refine .skip (skips_innerAttributes outer) ?_
    rintro _ rfl
    exact (reads_items each deep).answer fun _ _ => rfl
  obtain ⟨⟨_, items⟩, rfl, answered⟩ := read ⟨c.tokens, .nowhere, none⟩
    (by rw [List.append_nil]; exact same)
  exact ⟨items, onAll_ok_iff.mpr ⟨_, answered, rfl, rfl⟩⟩

end

/-- **Every generated name is a name**, except one: the companion of a trait `ISelf` that
asks for no other name is called `Self`.  In all other cases what is generated is read as items. -/
theorem generated_names {t : TraitDecl} {cx : Context} {e : Expansion} (named : t.IsNamed)
    (accepted : expand t cx = .ok e) :
    (∀ s ∈ e.companion.names, IsName s ↔ s ≠ "Self") ∧
      ("Self" ∈ e.companion.names ↔
        cx.extensionArguments.1.name = none ∧ t.name.name = "ISelf") ∧
      (t.IsReadable → cx.runtime.IsModulePath → "Self" ∉ e.companion.names →
        ∀ laidOut, ∃ items, SourceFile.ofTokens laidOut e.companion.tokens = .ok ⟨[], items⟩) := by
  have names := isName_iff_of_expand named accepted
  refine ⟨names, self_mem_names_iff named accepted, fun readable isPath other laidOut => ?_⟩
  refine ofTokens_of_readable (isReadable_of_expand named readable isPath accepted ?_) laidOut
  exact fun s member => (names s member).mpr fun self => other (self ▸ member)

namespace Sample

/-- The documentation of both methods of the sample. -/
def note : Attribute := Build.doc " Tells the \"state\"."

/-- A public trait with two documented methods, one of which has parameters. -/
def published : TraitDecl :=
  { interface with
    visibility := Build.visible
    items := interface.methods.map fun m => .method { m with attributes := note :: m.attributes } }

theorem isNamed : published.IsNamed where
  name := by decide
  methods m member :=
    have names : ∀ m ∈ published.methods, IsName m.signature.name.text := by decide
    have parameters : ∀ m ∈ published.methods, ∀ i ∈ m.signature.idents, IsName i.text := by
      decide
    ⟨names m member, parameters m member⟩

theorem accepted_published : ∃ e, expand published context = .ok e :=
  exists_ok_of_isOk (by decide +kernel)

/-- A parameter with a type of one word. -/
theorem isInput_parameter {name type : String} (ordinary : name ∉ keywords)
    (isType : type ∉ keywords) : IsInput 2 false ([word name] ++ (operator ":" ++ [word type])) :=
  (isPathTo_word (.inl isType)).path.type.input (i := ⟨name, .nowhere⟩) ordinary fun _ => rfl

/-- The signature of a method that takes `&self` and parameters. -/
theorem isSignature_method (name : String) {xs : List (List Token)} (ordinary : name ∉ keywords)
    (each : ∀ x ∈ xs, IsInput 2 false x) :
    IsSignature 2 ([word "fn"] ++ ([word name] ++ (parens (commaTokens false (code "& self" :: xs))
      ++ ([] ++ [])))) :=
  isSignature (i := ⟨name, .nowhere⟩) (.inl rfl) ordinary (isInputs_cons (isInput_self 2) each)
    .none .none

theorem isReadable : published.IsReadable where
  visibility := .all .nowhere
  docs m member a isGiven isDoc := by
    have written : ∀ m ∈ published.methods, ∃ b : Attribute, m.attributes = [note, b] ∧
        b.isDoc = false :=
      forall_mem_pair ⟨_, rfl, by decide⟩ ⟨_, rfl, by decide⟩
    obtain ⟨b, attributes, other⟩ := written m member
    obtain rfl | rfl := List.mem_pair.mp (attributes ▸ isGiven)
    · exact (isAttribute_literal (i := ⟨"doc", .nowhere⟩) (by decide)).mono (Nat.zero_le _)
    · rw [other] at isDoc
      cases isDoc
  signatures m member g deep := by
    have host : IsInput 2 false (code "host : Host") := isInput_parameter (by decide) (by decide)
    have port : IsInput 2 false (code "r#port : Port") := isInput_parameter (by decide) (by decide)
    have signatures : ∀ m ∈ published.methods, IsSignature 2 m.signature.plain.tokens :=
      forall_mem_pair
        (isSignature_method "listening" (by decide) (forall_mem_pair host port))
        (isSignature_method "stopped" (by decide) (List.forall_mem_nil _))
    exact (signatures m member).read g (deep.mono (by rw [depthFor]; omega))

/-- An interface whose companion is called `Self`. -/
def selfSource : String := "#[logger_extensions]\ntrait ISelf \x7b\x7d"

end Sample

theorem generated_names_sample :
    Sample.published.IsNamed ∧ Sample.published.IsReadable ∧
      Sample.context.runtime.IsModulePath ∧
      ∃ e, expand Sample.published Sample.context = .ok e ∧ "Self" ∉ e.companion.names ∧
        (∀ s ∈ e.companion.names, IsName s ↔ s ≠ "Self") ∧
        ("Self" ∈ e.companion.names ↔ Sample.context.extensionArguments.1.name = none ∧
          Sample.published.name.name = "ISelf") ∧
        ∀ laidOut, ∃ items, SourceFile.ofTokens laidOut e.companion.tokens = .ok ⟨[], items⟩ := by
  obtain ⟨e, accepted⟩ := Sample.accepted_published
  obtain ⟨names, self, items⟩ := generated_names Sample.isNamed accepted
  have other : "Self" ∉ e.companion.names := fun member => absurd (self.mp member).2 (by decide)
  exact ⟨Sample.isNamed, Sample.isReadable, isModulePath_default, e, accepted, other, names, self,
    items Sample.isReadable isModulePath_default other⟩

/-- If no trait is rejected, an answer without a file is the parse error of the new one. -/
theorem invalidSource_of_silent {f : SourceFile} {settings : Settings}
    (silent : (f.replacement settings).report.isEmpty = true)
    (failed : (f.generate settings).isOk = false) :
    ∃ v, f.generate settings = .error [v] ∧ v.kind = .invalidSource := by
  rw [SourceFile.generate, if_pos silent, SourceFile.printed] at failed ⊢
  split at failed
  · exact ⟨_, rfl, rfl⟩
  · cases failed

/-- The source parses, and what is generated from it does not. -/
theorem generated_self_fails :
    ∃ f, SourceFile.ofSource Sample.selfSource = .ok f ∧
      ∃ v, generate Sample.selfSource {} = .error [v] ∧ v.kind = .invalidSource := by
  obtain ⟨f, read, fails⟩ := exists_file_of_check Sample.selfSource
    (fun f => (f.replacement {}).report.isEmpty && !(f.generate {}).isOk)
    rfl (by decide +kernel)
  obtain ⟨silent, failed⟩ := (Bool.and_eq_true _ _).mp fails
  rw [generate_parsed read]
  exact ⟨f, read, invalidSource_of_silent silent (Bool.not_eq_true' _ ▸ failed)⟩

end LogInterface
