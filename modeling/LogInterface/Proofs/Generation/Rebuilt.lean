/-
# Proofs.Generation.Rebuilt -- the generated file as items

The new file is assembled as tokens (`SourceFile.assembled`).  `SourceFile.rebuilt` is
the same file as items: what stays stands in it as it is, an annotated trait is replaced
by the trait without its annotations and the items of its companion.  Its tokens are
the assembled ones (`rebuilt_tokens`).

A file is `Flat` if none of its interfaces holds another annotated trait.  Then no
annotated trait occurs in the rebuilt file, at any depth (`rebuilt_free`): what was an
interface lost its annotations, nothing that is generated has any, and an item that
stays without a violation had none inside.
-/
import LogInterface.Proofs.Companion.Unannotated

namespace LogInterface

set_option autoImplicit false

/-! ## Answers -/

/-- The answer to a file is made of what its items contribute. -/
theorem generate_contributions (f : SourceFile) (settings : Settings) :
    ∃ cs, List.Forall₂ (Contributes settings) f.items cs ∧
      f.generate settings =
        if (cs.flatMap Contribution.violations).isEmpty then
          (f.printed settings (cs.flatMap Contribution.tokens)).map fun source =>
            { source
              interfaces := cs.flatMap Contribution.pairs
              notes := cs.flatMap Contribution.notes }
        else .error (cs.flatMap Contribution.violations) := by
  obtain ⟨cs, contribute, tokens, interfaces, notes, report⟩ := contributes_items settings f.items
  refine ⟨cs, contribute, ?_⟩
  rw [SourceFile.generate, SourceFile.replacement, tokens, interfaces, notes, report]

/-- A file was generated: nothing is wrong with any item, and what was assembled was
read and written. -/
structure SourceFile.Generates (f : SourceFile) (settings : Settings) (cs : List Contribution)
    (whole : SourceFile) (g : Generated) : Prop where
  contribute : List.Forall₂ (Contributes settings) f.items cs
  silent : cs.flatMap Contribution.violations = []
  reads : SourceFile.ofTokens true (f.assembled cs) = .ok whole
  source : g.source = (if settings.header then generatedHeader else "") ++ whole.text
  interfaces : g.interfaces = cs.flatMap Contribution.pairs
  notes : g.notes = cs.flatMap Contribution.notes

theorem generates_of_ok {f : SourceFile} {settings : Settings} {g : Generated}
    (generated : f.generate settings = .ok g) : ∃ cs whole, f.Generates settings cs whole g := by
  obtain ⟨cs, contribute, answer⟩ := generate_contributions f settings
  rw [answer] at generated
  split at generated
  · rename_i silent
    rw [SourceFile.printed] at generated
    split at generated
    · cases generated
    · rename_i whole reads
      cases generated
      exact ⟨cs, whole, contribute, List.isEmpty_iff.mp silent, reads, rfl, rfl, rfl⟩
  · cases generated

/-- In a file that was generated every annotated trait at the top was accepted. -/
theorem interface_of_generates {f whole : SourceFile} {settings : Settings} {g : Generated}
    {cs : List Contribution} (generates : f.Generates settings cs whole g) {t : TraitDecl}
    (top : .trait t ∈ f.items) (annotated : t.isAnnotated = true) :
    ∃ e, expand t (settings.context false t) = .ok e ∧ .interface t e ∈ cs := by
  obtain ⟨c, member, contributes⟩ := exists_of_forall₂ generates.contribute.flip _ top
  have silent : c.violations = [] := List.flatMap_eq_nil_iff.mp generates.silent c member
  cases contributes with
  | @accepted _ _ e found accepted =>
      obtain ⟨-, rfl⟩ := found_iff.mp found
      exact ⟨e, accepted, member⟩
  | rejected _ rejected => exact absurd silent (ne_nil_of_expand rejected)
  | kept unannotated =>
      cases annotated.symm.trans (isAnnotated_eq_false.mpr (unannotated t rfl))

/-! ## Items -/

def Contribution.items : Contribution → List Tree
  | interface t e => .trait t.stripped :: e.companion.items
  | rejected _ => []
  | kept item _ => [item]

def SourceFile.rebuilt (f : SourceFile) (cs : List Contribution) : SourceFile :=
  { f with items := cs.flatMap Contribution.items }

theorem items_tokens_of_contributes {settings : Settings} {item : Tree} {c : Contribution}
    (contributes : Contributes settings item c) (outer : ∀ t, item = .trait t → t.Outer) :
    treesTokens c.items = c.tokens := by
  cases contributes with
  | accepted found accepted =>
      rw [Contribution.items, treesTokens_cons,
        Companion.items_tokens _ (docs_outer_of_expand accepted (outer _ rfl))]
      rfl
  | rejected found rejected => rfl
  | kept unannotated inside => exact List.append_nil _

/-- The rebuilt file stands for the tokens that are assembled. -/
theorem rebuilt_tokens {source : String} {f : SourceFile}
    (parses : SourceFile.ofSource source = .ok f) {settings : Settings} {cs : List Contribution}
    (contribute : List.Forall₂ (Contributes settings) f.items cs) :
    (f.rebuilt cs).tokens = f.assembled cs := by
  have each : ∀ c ∈ cs, treesTokens c.items = c.tokens := by
    intro c member
    obtain ⟨item, top, contributes⟩ := exists_of_forall₂ contribute c member
    exact items_tokens_of_contributes contributes fun t same => traits_outer parses (same ▸ top)
  rw [SourceFile.tokens, SourceFile.assembled, SourceFile.rebuilt, treesTokens_flatMap,
    List.flatMap_congr each]

/-! ## Files without annotated traits -/

/-- None of the interfaces of the file holds another annotated trait, and neither does the
path of the runtime crate. -/
structure SourceFile.Flat (f : SourceFile) (settings : Settings) : Prop where
  interfaces : ∀ t, .trait t ∈ f.items → t.isAnnotated = true → FreeAll (Tree.trait t).parts
  runtime : settings.runtime.Free

theorem items_free_of_contributes {settings : Settings} {item : Tree} {c : Contribution}
    (contributes : Contributes settings item c)
    (flat : ∀ t, item = .trait t → t.isAnnotated = true → FreeAll (Tree.trait t).parts)
    (runtime : settings.runtime.Free) (silent : c.violations = []) : FreeAll c.items := by
  cases contributes with
  | accepted found accepted =>
      obtain ⟨annotated, rfl⟩ := found_iff.mp found
      have inside := flat _ rfl annotated
      exact freeAll_cons.mpr
        ⟨stripped_free inside, companion_free_of_expand accepted inside runtime⟩
  | rejected found rejected => exact freeAll_nil
  | @kept item reports unannotated inside =>
      have none : reports = [] := by
        refine List.eq_nil_iff_forall_not_mem.mpr fun r member => ?_
        obtain ⟨t, isInside, cx, found, rejected⟩ := exists_of_forall₂ inside r member
        exact ne_nil_of_expand rejected (List.flatten_eq_nil_iff.mp silent r member)
      rw [none, List.forall₂_nil_right_iff, annotatedTraits_eq_nil] at inside
      exact freeAll_cons.mpr ⟨inside, freeAll_nil⟩

/-- No annotated trait occurs in a file that was generated. -/
theorem rebuilt_free {f : SourceFile} {settings : Settings} (flat : f.Flat settings)
    {cs : List Contribution} (contribute : List.Forall₂ (Contributes settings) f.items cs)
    (silent : cs.flatMap Contribution.violations = []) : FreeAll (f.rebuilt cs).items := by
  refine freeAll_flatMap.mpr fun c member => ?_
  obtain ⟨item, top, contributes⟩ := exists_of_forall₂ contribute c member
  exact items_free_of_contributes contributes (fun t same => flat.interfaces t (same ▸ top))
    flat.runtime (List.flatMap_eq_nil_iff.mp silent c member)

end LogInterface
