/-
# Proofs.Generation.Clashes -- names that meet in one module

The items of a companion stand beside the trait, and beside all that is generated for
other traits of the file.

Within one interface the companion, the extension trait and the hidden module have three
names, and the trait has a fourth one unless the annotation asks for a name
(`types_distinct`).  A rule guards the trait against a name that is asked for, but it
compares spellings and leaves the hidden module out (`trait_meets_types`).

Nothing compares two interfaces.  What is generated for them is apart exactly if their
companions have different snake case and neither is named like something made for the
other (`interfaces_apart_iff`), and a file in which it is not is accepted all the same
(`companions_meet`).
-/
import LogInterface.Proofs.Generation.Examined
import LogInterface.Proofs.Generation.Names
import LogInterface.Proofs.Interface.Collision

namespace LogInterface

set_option autoImplicit false

/-! ## One interface -/

/-- A trait that names its companion itself is named like none of its types. -/
theorem not_mem_types_companion (i : Ident) : i.name ∉ Naming.types (Naming.companion i) := by
  have lengths := (length_companion i).imp_left And.left
  have ext := Naming.length_extensionTrait (Naming.companion i)
  have hidden := Naming.length_hiddenModule (Naming.companion i)
  intro member
  simp only [Naming.types, List.mem_cons, List.not_mem_nil, or_false] at member
  rcases member with same | same | same <;> rw [same] at lengths <;> omega

theorem asked_of_mem_types {cx : Context} {interface companion : Ident}
    (named : cx.Names interface companion)
    (member : interface.name ∈ Naming.types companion) :
    cx.extensionArguments.1.name ≠ none := by
  cases named with
  | @asked args l _ read asks _ =>
      have isAsked : cx.extensionArguments.1.name = some l := by
        simp only [Context.extensionArguments, read, asks]
      rw [isAsked]
      exact Option.some_ne_none l
  | derived => exact absurd member (not_mem_types_companion interface)

/-- **The types of an accepted interface have names of their own.**  The trait can be named
like one of them only if a name was asked for, and then like the hidden module or behind
a raw spelling. -/
theorem types_distinct {t : TraitDecl} {cx : Context} {e : Expansion}
    (accepted : expand t cx = .ok e) :
    (Naming.types e.companion.name).Nodup ∧
      (t.name.name ∈ Naming.types e.companion.name →
        cx.extensionArguments.1.name ≠ none ∧
          (t.name.name = (Naming.hiddenModule e.companion.name).text ∨
            ¬(t.name.IsPlain ∧ e.companion.name.IsPlain))) := by
  have named := names_of_expand accepted
  obtain ⟨companion, named', other, otherExt, -⟩ :=
    (expand_ok_iff_isLogging.mp ⟨e, accepted⟩).companion
  obtain rfl := names_unique named named'
  refine ⟨Naming.types_nodup _, fun member => ⟨asked_of_mem_types named member, ?_⟩⟩
  simp only [Naming.types, List.mem_cons, List.not_mem_nil, or_false] at member
  rcases member with same | same | same
  · right
    rintro ⟨plain, plain'⟩
    exact other (plain'.trans (same.symm.trans plain.symm))
  · right
    rintro ⟨plain, -⟩
    exact otherExt (same.symm.trans plain.symm)
  · exact .inl same

theorem types_distinct_sample :
    ∃ e, expand Sample.interface Sample.context = .ok e ∧
      (Naming.types e.companion.name).Nodup ∧
      Sample.interface.name.name ∉ Naming.types e.companion.name := by
  obtain ⟨e, accepted⟩ := Sample.accepted
  obtain ⟨distinct, onlyAsked⟩ := types_distinct accepted
  refine ⟨e, accepted, distinct, fun member => (onlyAsked member).1 ?_⟩
  exact Option.isNone_iff_eq_none.mp (by decide +kernel)

theorem companion_of_asks {t : TraitDecl} {cx : Context} {args : ExtensionArguments} {i : Ident}
    (asks : cx.Asks args i) {e : Expansion} (accepted : expand t cx = .ok e) :
    e.companion.name = i := by
  obtain ⟨read, l, asked, parses⟩ := asks
  exact names_unique (names_of_expand accepted) (.asked read asked parses)

namespace Sample

/-- A trait that is named like the hidden module of a companion `App`. -/
def hiddenApp : TraitDecl := { app with name := ⟨"__app", .nowhere⟩ }

end Sample

/-- The trait `App` is accepted with a companion `r#App`, and the trait `__app` with the
hidden module `__app`. -/
theorem trait_meets_types :
    (∃ e, expand Sample.app (Sample.asking "r#App") = .ok e ∧
      Sample.app.name.name = e.companion.name.name) ∧
    ∃ e, expand Sample.hiddenApp (Sample.asking "App") = .ok e ∧
      Sample.hiddenApp.name.name = (Naming.hiddenModule e.companion.name).text := by
  constructor
  · obtain ⟨e, accepted⟩ : ∃ e, expand Sample.app (Sample.asking "r#App") = .ok e :=
      exists_ok_of_isOk (by decide +kernel)
    obtain ⟨args, i, asks, named, -⟩ :=
      @exists_asks (Sample.asking "r#App") "App" (by decide +kernel)
    refine ⟨e, accepted, ?_⟩
    rw [companion_of_asks asks accepted, named]
    decide
  · obtain ⟨e, accepted⟩ : ∃ e, expand Sample.hiddenApp (Sample.asking "App") = .ok e :=
      exists_ok_of_isOk (by decide +kernel)
    obtain ⟨args, i, asks, named, -⟩ :=
      @exists_asks (Sample.asking "App") "App" (by decide +kernel)
    refine ⟨e, accepted, ?_⟩
    rw [companion_of_asks asks accepted, Naming.hiddenModule, named]
    decide

/-! ## Two interfaces -/

/-- The name that an item of a companion gives to what it declares. -/
def Tree.declared? : Tree → Option Ident
  | .trait t => some t.name
  | .node .structItem (_ :: _ :: _ :: .token (.ident text place) :: _)
  | .node .modItem (_ :: _ :: _ :: _ :: .token (.ident text place) :: _)
  | .node .constItem (_ :: _ :: _ :: _ :: .token (.ident text place) :: _) => some ⟨text, place⟩
  | _ => none

/-- The items of a companion declare four names, and its implementations none. -/
theorem items_declared (c : Companion) :
    c.items.filterMap Tree.declared? =
      [Naming.hiddenModule c.name, Naming.extensionTrait c.name, c.name,
        Naming.eventsConst c.name] := rfl

/-- The trait was expanded, and the items that were made for it stand in the new file. -/
structure TraitDecl.StandsIn (t : TraitDecl) (settings : Settings) (new : SourceFile)
    (e : Expansion) : Prop where
  expanded : expand t (settings.context false t) = .ok e
  items : ∀ item ∈ e.companion.items, item ∈ new.items
  names : e.companion.items.filterMap Tree.declared? =
    [Naming.hiddenModule e.companion.name, Naming.extensionTrait e.companion.name,
      e.companion.name, Naming.eventsConst e.companion.name]

theorem standsIn_of_generates {f whole : SourceFile} {settings : Settings} {g : Generated}
    {cs : List Contribution} (generates : f.Generates settings cs whole g) {t : TraitDecl}
    (top : .trait t ∈ f.items) (annotated : t.isAnnotated = true) :
    ∃ e, t.StandsIn settings (f.rebuilt cs) e := by
  obtain ⟨e, accepted, member⟩ := interface_of_generates generates top annotated
  refine ⟨e, accepted, fun item made => ?_, items_declared e.companion⟩
  exact List.mem_flatMap.mpr ⟨_, member, List.mem_cons_of_mem _ made⟩

/-- **When the items of two interfaces have different names.**  In a file that was generated
it is so exactly if their companions differ in snake case and neither of them is named
like the extension trait, the hidden module or the constant of the other. -/
theorem interfaces_apart_iff {source : String} {f : SourceFile}
    (parses : SourceFile.ofSource source = .ok f) {settings : Settings} {g : Generated}
    (generated : generate source settings = .ok g) {t t' : TraitDecl}
    (top : .trait t ∈ f.items) (annotated : t.isAnnotated = true)
    (top' : .trait t' ∈ f.items) (annotated' : t'.isAnnotated = true) :
    ∃ cs whole e e', f.Generates settings cs whole g ∧ (f.rebuilt cs).tokens = f.assembled cs ∧
      t.StandsIn settings (f.rebuilt cs) e ∧ t'.StandsIn settings (f.rebuilt cs) e' ∧
      ((Naming.declared e.companion.name).Disjoint (Naming.declared e'.companion.name) ↔
        Naming.snakeCase e.companion.name.name ≠ Naming.snakeCase e'.companion.name.name ∧
          e.companion.name.name ∉ Naming.made e'.companion.name ∧
          e'.companion.name.name ∉ Naming.made e.companion.name) := by
  rw [generate_parsed parses] at generated
  obtain ⟨cs, whole, generates⟩ := generates_of_ok generated
  obtain ⟨e, stands⟩ := standsIn_of_generates generates top annotated
  obtain ⟨e', stands'⟩ := standsIn_of_generates generates top' annotated'
  exact ⟨cs, whole, e, e', generates, rebuilt_tokens parses generates.contribute, stands, stands',
    Naming.declared_disjoint_iff⟩

namespace Sample

/-- Two interfaces.  One companion gets a suffix, and with it the name that is left of the
other without its `I`. -/
def meeting : String :=
  "#[logger_extensions] trait Foo {} #[logger_extensions] trait IFooLogger {}"

/-- Are there two annotated traits with these names, and both have a companion
`FooLogger`? -/
def meets (f : SourceFile) : Bool :=
  match f.items with
  | [.trait t, .trait t'] =>
      let companion (t : TraitDecl) : Option String :=
        (expand t (({} : Settings).context false t)).toOption.map (·.companion.name.name)
      t.isAnnotated && t'.isAnnotated && t.name.name == "Foo" && t'.name.name == "IFooLogger"
        && companion t == some "FooLogger" && companion t' == some "FooLogger"
  | _ => false

theorem meeting_generates : ∃ f, SourceFile.ofSource meeting = .ok f ∧ meets f = true ∧
    ∃ g, generate meeting {} = .ok g := by
  obtain ⟨f, parses, checked⟩ := exists_file_of_check meeting
    (fun f => meets f && (f.generate {}).isOk) rfl (by decide +kernel)
  obtain ⟨meets, isOk⟩ := (Bool.and_eq_true _ _).mp checked
  exact ⟨f, parses, meets, generate_parsed parses ▸ exists_ok_of_isOk isOk⟩

theorem exists_of_meets {f : SourceFile} (meets : Sample.meets f = true) :
    ∃ t t' : TraitDecl, (.trait t ∈ f.items ∧ t.isAnnotated = true) ∧
      (.trait t' ∈ f.items ∧ t'.isAnnotated = true) ∧ t.name.name ≠ t'.name.name ∧
      ∃ e e', expand t (({} : Settings).context false t) = .ok e ∧
        expand t' (({} : Settings).context false t') = .ok e' ∧
        e.companion.name.name = e'.companion.name.name := by
  unfold Sample.meets at meets
  split at meets
  · rename_i t t' spelled
    simp only [Bool.and_eq_true, beq_iff_eq] at meets
    obtain ⟨⟨⟨⟨⟨annotated, annotated'⟩, name⟩, name'⟩, companion⟩, companion'⟩ := meets
    obtain ⟨e, expanded, isName⟩ := Option.map_eq_some_iff.mp companion
    obtain ⟨e', expanded', isName'⟩ := Option.map_eq_some_iff.mp companion'
    refine ⟨t, t', ⟨by simp [spelled], annotated⟩, ⟨by simp [spelled], annotated'⟩, ?_, e, e',
      ok_of_toOption expanded, ok_of_toOption expanded', isName.trans isName'.symm⟩
    rw [name, name']
    decide
  · cases meets

end Sample

theorem interfaces_apart_iff_sample :
    ∃ f g t t', SourceFile.ofSource Sample.meeting = .ok f ∧ generate Sample.meeting {} = .ok g ∧
      (.trait t ∈ f.items ∧ t.isAnnotated = true) ∧ (.trait t' ∈ f.items ∧ t'.isAnnotated = true) ∧
      ∃ cs whole e e', f.Generates {} cs whole g ∧ (f.rebuilt cs).tokens = f.assembled cs ∧
        t.StandsIn {} (f.rebuilt cs) e ∧ t'.StandsIn {} (f.rebuilt cs) e' ∧
        ((Naming.declared e.companion.name).Disjoint (Naming.declared e'.companion.name) ↔
          Naming.snakeCase e.companion.name.name ≠ Naming.snakeCase e'.companion.name.name ∧
            e.companion.name.name ∉ Naming.made e'.companion.name ∧
            e'.companion.name.name ∉ Naming.made e.companion.name) := by
  obtain ⟨f, parses, meets, g, generated⟩ := Sample.meeting_generates
  obtain ⟨t, t', top, top', -⟩ := Sample.exists_of_meets meets
  exact ⟨f, g, t, t', parses, generated, top, top',
    interfaces_apart_iff parses generated top.1 top.2 top'.1 top'.2⟩

/-- The traits `Foo` and `IFooLogger` are accepted in one file, and their companions have
one name. -/
theorem companions_meet :
    ∃ f g t t', SourceFile.ofSource Sample.meeting = .ok f ∧ generate Sample.meeting {} = .ok g ∧
      (.trait t ∈ f.items ∧ t.isAnnotated = true) ∧ (.trait t' ∈ f.items ∧ t'.isAnnotated = true) ∧
      t.name.name ≠ t'.name.name ∧
      ∃ e e', expand t (({} : Settings).context false t) = .ok e ∧
        expand t' (({} : Settings).context false t') = .ok e' ∧
        e.companion.name.name = e'.companion.name.name := by
  obtain ⟨f, parses, meets, g, generated⟩ := Sample.meeting_generates
  obtain ⟨t, t', top, top', others, expansions⟩ := Sample.exists_of_meets meets
  exact ⟨f, g, t, t', parses, generated, top, top', others, expansions⟩

end LogInterface
