/-
# Proofs.Generation.FixedPoint -- generating again changes nothing

A file without annotated traits is left as it is: every item stays, and nothing is
generated (`generate_of_free`).  The file that is generated from a flat one is such a
file, so it is a fixed point: `generate_fixed_point`.  This is about the items that were
assembled.  A text that was printed from them and read again is left as it is for the
same reason, if no annotated trait came into it on the way.

A file with an interface inside another one is no fixed point: the copies of the inner
one stand inside items that are no interfaces now, and are reported as nested.
-/
import LogInterface.Proofs.Generation.Examined

namespace LogInterface

set_option autoImplicit false

/-! ## Files without annotated traits -/

/-- An item without annotated traits stays as it is. -/
theorem contributes_of_free {settings : Settings} {item : Tree} (free : item.Free)
    {c : Contribution} : Contributes settings item c ↔ c = .kept item [] := by
  have none : item.annotatedTraits = [] := annotatedTraits_eq_nil.mpr free
  have unannotated (t : TraitDecl) (same : item = .trait t) : t.isAnnotated = false :=
    free t (same ▸ .here)
  constructor
  · intro contributes
    cases contributes with
    | accepted found => cases (found_iff.mp found).1.symm.trans (unannotated _ rfl)
    | rejected found => cases (found_iff.mp found).1.symm.trans (unannotated _ rfl)
    | kept _ inside =>
        rw [none, List.forall₂_nil_left_iff] at inside
        rw [inside]
  · rintro rfl
    exact .kept (fun t same => isAnnotated_eq_false.mp (unannotated t same)) (none ▸ .nil)

/-- The contributions of items that stay as they are. -/
def keptItems (items : List Tree) : List Contribution := items.map (Contribution.kept · [])

theorem contributes_keptItems {settings : Settings} {items : List Tree} (free : FreeAll items)
    {cs : List Contribution} :
    List.Forall₂ (Contributes settings) items cs ↔ cs = keptItems items := by
  induction items generalizing cs with
  | nil => rw [List.forall₂_nil_left_iff, keptItems, List.map_nil]
  | cons item items ih =>
      obtain ⟨first, others⟩ := freeAll_cons.mp free
      rw [List.forall₂_cons_left_iff, keptItems, List.map_cons]
      simp only [contributes_of_free first, ih others, exists_and_left, exists_eq_left]
      rfl

theorem rebuilt_keptItems (f : SourceFile) : f.rebuilt (keptItems f.items) = f := by
  have items : (keptItems f.items).flatMap Contribution.items = f.items := by
    rw [keptItems, List.flatMap_map]
    exact List.flatMap_singleton' _
  rw [SourceFile.rebuilt, items]

/-- A file without annotated traits is read and printed, and nothing is generated. -/
theorem generate_of_free {f whole : SourceFile} {settings : Settings} (free : FreeAll f.items)
    (reads : SourceFile.ofTokens true f.tokens = .ok whole) :
    f.generate settings = .ok
      { source := (if settings.header then generatedHeader else "") ++ whole.text
        interfaces := []
        notes := [] } := by
  obtain ⟨cs, contribute, answer⟩ := generate_contributions f settings
  obtain rfl := (contributes_keptItems free).mp contribute
  have tokens : (keptItems f.items).flatMap Contribution.tokens = treesTokens f.items := by
    rw [keptItems, List.flatMap_map, treesTokens_eq]
    rfl
  have nothing {α : Type} {part : Contribution → List α}
      (none : ∀ item, part (.kept item []) = []) : (keptItems f.items).flatMap part = [] := by
    rw [keptItems, List.flatMap_map]
    exact List.flatMap_eq_nil_iff.mpr fun item _ => none item
  rw [answer, tokens, nothing fun _ => rfl, nothing fun _ => rfl, nothing fun _ => rfl,
    SourceFile.printed, ← SourceFile.tokens, reads]
  rfl

/-! ## Generated files -/

/-- The annotated traits of a file, at any depth and in the order of reading. -/
def SourceFile.annotatedTraits (f : SourceFile) : List TraitDecl :=
  f.items.flatMap Tree.annotatedTraits

theorem freeAll_iff_annotatedTraits {f : SourceFile} :
    FreeAll f.items ↔ f.annotatedTraits = [] := by
  rw [SourceFile.annotatedTraits, List.flatMap_eq_nil_iff]
  exact forall₂_congr fun item _ => annotatedTraits_eq_nil.symm

/-- A file that stays as it is: it is the answer to itself, item by item, and nothing is
generated from it. -/
structure SourceFile.Stays (f : SourceFile) (settings : Settings) (source : String) : Prop where
  contribute : List.Forall₂ (Contributes settings) f.items (keptItems f.items)
  items : f.rebuilt (keptItems f.items) = f
  answer : f.generate settings = .ok { source, interfaces := [], notes := [] }

theorem stays_of_free {f whole : SourceFile} {settings : Settings} (free : FreeAll f.items)
    (reads : SourceFile.ofTokens true f.tokens = .ok whole) :
    f.Stays settings ((if settings.header then generatedHeader else "") ++ whole.text) :=
  ⟨(contributes_keptItems free).mpr rfl, rebuilt_keptItems f, generate_of_free free reads⟩

/-- **Generating again changes nothing** in a file that was generated from a flat one: the
items that were assembled stay as they are, and their text is the same.  So does a text
that is read as a file with the same annotated traits. -/
theorem generate_fixed_point {source : String} {settings : Settings} {f : SourceFile}
    {g : Generated} (parses : SourceFile.ofSource source = .ok f) (flat : f.Flat settings)
    (generated : generate source settings = .ok g) :
    ∃ cs whole, f.Generates settings cs whole g ∧
      (f.rebuilt cs).tokens = f.assembled cs ∧
      (f.rebuilt cs).Stays settings g.source ∧
      ∀ text again printed, SourceFile.ofSource text = .ok again →
        again.annotatedTraits.map (·.name.text)
          = (f.rebuilt cs).annotatedTraits.map (·.name.text) →
        SourceFile.ofTokens true again.tokens = .ok printed →
        again.Stays settings ((if settings.header then generatedHeader else "") ++ printed.text) ∧
          generate text settings = again.generate settings := by
  rw [generate_parsed parses] at generated
  obtain ⟨cs, whole, generates⟩ := generates_of_ok generated
  have free : FreeAll (f.rebuilt cs).items :=
    rebuilt_free flat generates.contribute generates.silent
  have tokens : (f.rebuilt cs).tokens = f.assembled cs := rebuilt_tokens parses generates.contribute
  have stays : (f.rebuilt cs).Stays settings g.source :=
    generates.source ▸ stays_of_free free (tokens ▸ generates.reads)
  refine ⟨cs, whole, generates, tokens, stays, fun text again printed reparses same reads => ?_⟩
  rw [freeAll_iff_annotatedTraits.mp free, List.map_nil, List.map_eq_nil_iff] at same
  exact ⟨stays_of_free (freeAll_iff_annotatedTraits.mpr same) reads, generate_parsed reparses⟩

namespace Sample

/-- A file with an interface of one method, which has a parameter. -/
def small : String :=
  "#[logger_extensions] trait IUp \x7b #[logger_message(1, Information, \"up at \x7bport\x7d\")] "
    ++ "fn up(&self, port: u16); \x7d"

/-- Is no annotated trait inside an interface? -/
def isFlat (f : SourceFile) : Bool :=
  f.items.all fun item =>
    !item.isInterface || item.parts.all fun u => u.annotatedTraits.isEmpty

theorem flat_of_isFlat {f : SourceFile} (isFlat : Sample.isFlat f = true) : f.Flat {} := by
  refine ⟨fun t top annotated u part => ?_, by simp [defaultRuntime]⟩
  have each := List.all_eq_true.mp isFlat _ top
  rw [Bool.or_eq_true, Bool.not_eq_true', List.all_eq_true] at each
  obtain other | inside := each
  · cases annotated.symm.trans other
  · exact annotatedTraits_eq_nil.mp (List.isEmpty_iff.mp (inside u part))

theorem small_generates : ∃ f, SourceFile.ofSource small = .ok f ∧ isFlat f = true ∧
    ∃ g, generate small {} = .ok g := by
  obtain ⟨f, parses, checked⟩ := exists_file_of_check small
    (fun f => isFlat f && (f.generate {}).isOk) String.ofList_append.symm (by decide +kernel)
  obtain ⟨isFlat, isOk⟩ := (Bool.and_eq_true _ _).mp checked
  exact ⟨f, parses, isFlat, generate_parsed parses ▸ exists_ok_of_isOk isOk⟩

end Sample

theorem generate_fixed_point_sample :
    ∃ f g, SourceFile.ofSource Sample.small = .ok f ∧ f.Flat {} ∧ generate Sample.small {} = .ok g ∧
      ∃ cs whole, f.Generates {} cs whole g ∧ (f.rebuilt cs).tokens = f.assembled cs ∧
        (f.rebuilt cs).Stays {} g.source := by
  obtain ⟨f, parses, isFlat, g, generated⟩ := Sample.small_generates
  have flat := Sample.flat_of_isFlat isFlat
  obtain ⟨cs, whole, generates, tokens, stays, -⟩ := generate_fixed_point parses flat generated
  exact ⟨f, g, parses, flat, generated, cs, whole, generates, tokens, stays⟩

/-! ## Interfaces inside others -/

/-- An interface stands in the new file without its annotations. -/
theorem stripped_mem_rebuilt {f whole : SourceFile} {settings : Settings} {g : Generated}
    {cs : List Contribution} (generates : f.Generates settings cs whole g) {t : TraitDecl}
    (top : .trait t ∈ f.items) (annotated : t.isAnnotated = true) :
    .trait t.stripped ∈ (f.rebuilt cs).items := by
  obtain ⟨e, -, member⟩ := interface_of_generates generates top annotated
  exact List.mem_flatMap.mpr ⟨_, member, List.mem_cons_self⟩

/-- What is left of an interface with another one inside is rejected. -/
theorem generate_stripped {f : SourceFile} {settings : Settings} {t : TraitDecl}
    (top : .trait t.stripped ∈ f.items)
    (inside : (Tree.trait t.stripped).annotatedTraits ≠ []) :
    ∃ r, f.generate settings = .error r := by
  obtain ⟨d, others, found⟩ := List.exists_cons_of_ne_nil inside
  have annotated : d ∈ (Tree.trait t.stripped).annotatedTraits := found ▸ List.mem_cons_self
  obtain ⟨occurs, isAnnotated⟩ := mem_annotatedTraits.mp annotated
  obtain ⟨r, rejected, -⟩ : d.ReportedNested (f.generate settings) :=
    reported_of_inside top (stripped_isAnnotated t) isAnnotated occurs
  exact ⟨r, rejected⟩

namespace Sample

theorem inner_generates : ∃ g, generate inner {} = .ok g := by
  obtain ⟨f, parses, isOk⟩ := exists_file_of_check inner
    (fun f => (f.generate {}).isOk) String.ofList_append.symm (by decide +kernel)
  exact generate_parsed parses ▸ exists_ok_of_isOk isOk

end Sample

/-- The file is accepted, and what is assembled from it is rejected. -/
theorem inner_interface_moves :
    ∃ f g, SourceFile.ofSource Sample.inner = .ok f ∧ generate Sample.inner {} = .ok g ∧
      ∃ cs whole, f.Generates {} cs whole g ∧ ∃ r, (f.rebuilt cs).generate {} = .error r := by
  obtain ⟨f, parses, hides⟩ := Sample.inner_hides
  obtain ⟨-, t, d, top, annotated, left, -⟩ := Sample.exists_of_hides hides
  obtain ⟨g, generated⟩ := Sample.inner_generates
  rw [generate_parsed parses] at generated
  obtain ⟨cs, whole, generates⟩ := generates_of_ok generated
  refine ⟨f, g, parses, generate_parsed parses ▸ generated, cs, whole, generates, ?_⟩
  exact generate_stripped (stripped_mem_rebuilt generates top annotated) (List.ne_nil_of_mem left)

end LogInterface
