/-
# Proofs.Interface.Collision -- a trait and the types that are generated for it

A generated type must not be named like its trait, and one rule looks for it
(`exists_isCollision_iff`).  A trait that names its companion itself is safe from it, however it is
spelled.  Lengths tell the names apart (`length_companion`): without its `I` a name is one
character shorter, behind a suffix it is some longer, and neither `Ext` nor the mark of a raw
identifier makes up for that.  Only for a raw trait they meet: what loses an `I` and gets an `Ext` is
as long as the trait with its mark.  But it starts with a capital, and the mark does not.

So whenever the rule speaks, the annotation has asked for the name (`derived_names_apart`).
-/
import LogInterface.Proofs.Interface.Culprit
import LogInterface.Proofs.Interface.Naming
import LogInterface.Proofs.Interface.Spelling

namespace LogInterface

set_option autoImplicit false

/-! ## Derived names -/

theorem Ident.length_name (i : Ident) :
    i.IsPlain ∨ i.text.length = i.name.length + 2 := by
  refine i.text_cases.imp_right fun marked => ?_
  rw [← String.length_toList, marked, List.length_cons, List.length_cons, String.length_toList]

/-- A companion that is left of a trait without its `I` is spelled plainly. -/
theorem companion_isPlain {i : Ident} {c : Char} {cs : List Char} (upper : c.isUpper = true)
    (short : Naming.companionText i.name = String.ofList (c :: cs)) :
    (Naming.companion i).IsPlain := by
  refine (Ident.text_cases _).resolve_right fun marked => ?_
  rw [Naming.companion, short, String.toList_ofList] at marked
  injection marked with isR
  rw [isR] at upper
  exact absurd upper (by decide)

/-- The companion that a trait gets by itself is one character shorter than the trait and plain, or
it is some longer. -/
theorem length_companion (i : Ident) :
    ((Naming.companion i).name.length + 1 = i.name.length ∧ (Naming.companion i).IsPlain) ∨
      i.name.length + 4 ≤ (Naming.companion i).name.length := by
  have text : (Naming.companion i).text = Naming.companionText i.name := rfl
  rcases Naming.companionText_cases i.name with ⟨c, cs, spelled, upper, short⟩ | long
  · have plain := companion_isPlain upper short
    refine .inl ⟨?_, plain⟩
    rw [← plain, text, short, ← String.length_toList (s := i.name), spelled, String.length_ofList]
    rfl
  · right
    have suffix : "Logger".length = 6 := by decide
    rcases Ident.length_name (Naming.companion i) with plain | marked
    · rw [← plain, text, long, String.length_append]
      omega
    · rw [text, long, String.length_append] at marked
      omega

theorem length_spelled {i : Ident} {s : String} (spells : s = i.name ∨ s = i.text) :
    s.length = i.name.length ∨ s.length = i.name.length + 2 := by
  rcases spells with rfl | rfl
  · exact .inl rfl
  · exact (Ident.length_name i).imp_left fun plain => congrArg String.length plain

/-- The companion that a trait gets by itself has another name than the trait in any spelling. -/
theorem companion_ne {i : Ident} {s : String} (spells : s = i.name ∨ s = i.text) :
    (Naming.companion i).text ≠ s := by
  intro same
  have spelled := length_spelled spells
  have own := length_spelled (.inr (rfl : (Naming.companion i).text = _))
  rw [same] at own
  rcases length_companion i with ⟨shorter, plain⟩ | longer
  · rw [Ident.IsPlain, same] at plain
    rw [plain] at spelled
    omega
  · omega

/-- And so has its extension trait. -/
theorem extensionTrait_ne {i : Ident} {s : String} (spells : s = i.name ∨ s = i.text) :
    (Naming.extensionTrait (Naming.companion i)).text ≠ s := by
  intro same
  have spelled := length_spelled spells
  have extended := Naming.length_extensionTrait (Naming.companion i)
  rw [same] at extended
  rcases length_companion i with ⟨shorter, plain⟩ | longer
  · -- The lengths agree for a raw trait, but the extension trait is plain.
    rcases spells with rfl | rfl
    · omega
    · rcases i.text_cases with unmarked | marked
      · rw [unmarked] at extended
        omega
      · refine (Naming.extensionTrait_isPlain plain).unmarked i.name.toList ?_
        rw [same, marked]
  · omega

/-- An `I` is taken away from a name exactly if an ASCII capital follows it. -/
theorem companion_stripped_iff (i : Ident) :
    "I" ++ (Naming.companion i).text = i.name ↔
      ∃ c rest, i.name.toList = 'I' :: c :: rest ∧ 'A' ≤ c ∧ c ≤ 'Z' := by
  have capital (c : Char) : c.isUpper = true ↔ 'A' ≤ c ∧ c ≤ 'Z' := decide_eq_true_iff
  constructor
  · intro whole
    rcases Naming.companionText_cases i.name with ⟨c, cs, spelled, upper, -⟩ | long
    · exact ⟨c, cs, spelled, (capital c).mp upper⟩
    · have lengths := congrArg String.length whole
      have letter : "I".length = 1 := by decide
      rw [Naming.companion, long, String.length_append, String.length_append] at lengths
      omega
  · rintro ⟨c, rest, spelled, bounds⟩
    have upper := (capital c).mpr bounds
    apply String.toList_injective
    rw [String.toList_append, Naming.companion, Naming.companionText, spelled]
    simp [upper]

/-! ## The rule -/

/-- The rule speaks exactly if a generated type is spelled as the trait. -/
theorem exists_isCollision_iff (d : Interface) :
    (∃ v ∈ d.validate, v.IsCollision) ↔ d.collides = true := by
  constructor
  · rintro ⟨v, member, collision⟩
    obtain ⟨u, rfl, shape | ⟨l, -, broken⟩ | ⟨id, twice⟩⟩ := exists_of_mem_validate member
    · exact (shapeViolations_ofShape d u shape).collision collision
    · have kind : u.kind = .invalidInterfaceShape := collision.1
      rcases kind_of_mem_violations broken with other | other <;> cases kind.symm.trans other
    · have kind : u.kind = .invalidInterfaceShape := collision.1
      cases kind.symm.trans (kind_of_mem_duplicateViolations twice)
  · intro collides
    have found : shapeViolation d.companion.place ("generated type name " ++ d.companion.quoted
        ++ " collides with the trait " ++ d.name.quoted) ∈ d.shapeViolations := by
      refine List.mem_append_right _ ?_
      rw [violationIf, if_pos collides]
      exact List.mem_singleton_self _
    refine ⟨_, List.mem_map_of_mem (List.mem_append_left _ (List.mem_append_left _ found)), rfl, ?_⟩
    show _ <+: (_ ++ _ ++ _ ++ _ : String).toList
    rw [String.append_assoc, String.append_assoc, String.toList_append]
    exact List.prefix_append _ _

/-! ## The annotation -/

/-- Without a name that is asked for, or with one that is none, the trait names its companion by
itself. -/
theorem companion_of_unasked {t : TraitDecl} {cx : Context} (unasked : ∀ args i, ¬cx.Asks args i) :
    (t.describe cx).1.companion = Naming.companion t.name := by
  show (companionOf t.name cx.extensionArguments.1.name).1 = _
  cases read : ExtensionArguments.ofTokens cx.arguments with
  | error e => rw [Context.extensionArguments, read]; rfl
  | ok args =>
      rw [Context.extensionArguments, read]
      cases named : args.name with
      | none => rfl
      | some l =>
          cases parses : withinLiteral l fun _ => Parser.name with
          | ok i => exact absurd ⟨read, l, named, parses⟩ (unasked args i)
          | error e => simp only [companionOf, parses]

/-- A described trait is named like one of its types exactly if that was asked for. -/
theorem collides_describe_iff (t : TraitDecl) (cx : Context) :
    (t.describe cx).1.collides = true ↔
      ∃ args i, cx.Asks args i ∧
        (i.text = t.name.text ∨ (Naming.extensionTrait i).text = t.name.text) := by
  have meets : (t.describe cx).1.collides = true ↔
      (t.describe cx).1.companion.text = t.name.text ∨
        (Naming.extensionTrait (t.describe cx).1.companion).text = t.name.text := by
    rw [Interface.collides, Bool.or_eq_true, beq_iff_eq, beq_iff_eq]
    rfl
  rw [meets]
  by_cases asked : ∃ args i, cx.Asks args i
  · obtain ⟨args, i, asks⟩ := asked
    have only {args' i'} (asks' : cx.Asks args' i') : (t.describe cx).1.companion = i' := by
      obtain ⟨read, l, named, parses⟩ := asks'
      exact describe_companion (.asked read named parses)
    rw [only asks]
    constructor
    · exact fun same => ⟨args, i, asks, same⟩
    · rintro ⟨args', i', asks', same⟩
      rwa [(only asks).symm.trans (only asks')]
  · have unasked : ∀ args i, ¬cx.Asks args i := fun args i asks => asked ⟨args, i, asks⟩
    rw [companion_of_unasked unasked]
    constructor
    · rintro (same | same)
      · exact absurd same (companion_ne (.inr rfl))
      · exact absurd same (extensionTrait_ne (.inr rfl))
    · rintro ⟨args, i, asks, -⟩
      exact absurd asks (unasked args i)

/-- **Derived names never collide with the trait.**  The companion that a trait gets by itself and
its extension trait have other names than the trait, and the companion is the trait without its `I`
exactly if an ASCII capital follows.  So whatever trait is checked, the rule against collisions speaks
only of a name that was asked for: exactly if that name, or its extension trait, is spelled as the
trait. -/
theorem derived_names_apart :
    (∀ i : Ident,
      (Naming.companion i).text ≠ i.name ∧
      (Naming.extensionTrait (Naming.companion i)).text ≠ i.name ∧
      ("I" ++ (Naming.companion i).text = i.name ↔
        ∃ c rest, i.name.toList = 'I' :: c :: rest ∧ 'A' ≤ c ∧ c ≤ 'Z')) ∧
    ∀ (t : TraitDecl) (cx : Context),
      (∃ v ∈ (t.describe cx).1.validate, v.IsCollision) ↔
        ∃ args i, cx.Asks args i ∧
          (i.text = t.name.text ∨ (Naming.extensionTrait i).text = t.name.text) := by
  refine ⟨fun i => ?names, fun t cx => ?rule⟩
  case names =>
    exact ⟨companion_ne (.inl rfl), extensionTrait_ne (.inl rfl), companion_stripped_iff i⟩
  case rule => rw [exists_isCollision_iff, collides_describe_iff]

example : (Sample.app.describe (Sample.asking "App")).1.collides = true := by decide +kernel

end LogInterface
