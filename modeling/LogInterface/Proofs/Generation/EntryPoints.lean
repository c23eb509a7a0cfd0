/-
# Proofs.Generation.EntryPoints -- the attribute and the generator agree

An interface can be expanded in two ways.  The compiler hands the attribute its own
arguments and the trait without it; the generator finds the trait as it was
written, all annotations included.  `TraitDecl.Invokes` is what the compiler does.

Two things differ on the way, and both come out alike: the attribute counts itself
and the annotations that are left, the generator all of them
(`context_of_invokes`); and what the compiler has taken off would have been stripped
(`stripped_of_invokes`).  Everything else about a trait is read without its
attributes, so the expansions are equal, places included: `entry_points_agree`.
-/
import LogInterface.Proofs.Generation.Contribution

namespace LogInterface

set_option autoImplicit false

/-- The compiler hands the trait `bare` to the first annotation of a trait: it takes the
annotation off and keeps every other attribute. -/
inductive TraitDecl.Invokes (t : TraitDecl) (first : Attribute) : TraitDecl → Prop where
  | taken {before after : List Attribute} :
      t.attributes = before ++ first :: after → (∀ a ∈ before, a.isTrigger = false) →
      first.isTrigger = true → Invokes t first { t with attributes := before ++ after }

/-- Every annotated trait invokes its first annotation. -/
theorem exists_invokes {t : TraitDecl} (annotated : t.isAnnotated = true) :
    ∃ first bare, t.Invokes first bare := by
  rw [TraitDecl.isAnnotated, ← List.isSome_find?, Option.isSome_iff_exists] at annotated
  obtain ⟨first, found⟩ := annotated
  obtain ⟨trigger, before, after, attributes, none⟩ := List.find?_eq_some_iff_append.mp found
  exact ⟨first, _, .taken attributes (fun a member => by simpa using none a member) trigger⟩

/-- The trait with one more annotation in front of its attributes. -/
def TraitDecl.annotate (t : TraitDecl) (a : Attribute) : TraitDecl :=
  { t with attributes := a :: t.attributes }

theorem invokes_annotate (t : TraitDecl) {a : Attribute} (trigger : a.isTrigger = true) :
    (t.annotate a).Invokes a t := by
  cases t with
  | mk attributes visibility unsafety auto keyword name generics supertraits trailingPlus clause
      items =>
      have none : ∀ a ∈ ([] : List Attribute), a.isTrigger = false := fun _ member => nomatch member
      exact .taken (List.nil_append _).symm none trigger

variable {t bare : TraitDecl} {first : Attribute}

theorem annotations_of_invokes (invokes : t.Invokes first bare) :
    t.annotations = first :: bare.annotations := by
  obtain ⟨attributes, none, trigger⟩ := invokes
  have before : List.filter Attribute.isTrigger _ = [] :=
    List.filter_eq_nil_iff.mpr fun a member => Bool.eq_false_iff.mp (none a member)
  simp [TraitDecl.annotations, attributes, List.filter_append, before, trigger]

/-- Both count every annotation, and both read the arguments of the first. -/
theorem context_of_invokes (invokes : t.Invokes first bare) :
    Context.ofAttribute bare first.arguments = ({} : Settings).context false t := by
  have annotations : t.attributes.filter Attribute.isTrigger
      = first :: bare.attributes.filter Attribute.isTrigger := annotations_of_invokes invokes
  simp [Context.ofAttribute, Settings.context, annotations]

theorem stripped_of_invokes (invokes : t.Invokes first bare) : bare.stripped = t.stripped := by
  obtain ⟨attributes, none, trigger⟩ := invokes
  simp [TraitDecl.stripped, attributes, List.filter_append, trigger]

theorem expand_of_invokes (invokes : t.Invokes first bare) (cx : Context) :
    expand bare cx = expand t cx := by
  have examined : bare.examine cx = t.examine cx := by
    obtain ⟨-, -, -⟩ := invokes
    rfl
  rw [expand, expand, examined, Examined.expansion, Examined.expansion,
    stripped_of_invokes invokes]

theorem isAnnotated_of_invokes (invokes : t.Invokes first bare) : t.isAnnotated = true := by
  rw [← Bool.not_eq_false, isAnnotated_eq_false, annotations_of_invokes invokes]
  exact List.cons_ne_nil _ _

theorem declaration_of_expand {cx : Context} {e : Expansion} (accepted : expand t cx = .ok e) :
    e.declaration = t.stripped := by
  rw [expand, Examined.expansion] at accepted
  split at accepted
  · cases accepted
    rfl
  · cases accepted

/-- **The two entry points agree**: the attribute, applied to its arguments and to the
trait without it, and the generator, applied to the annotated trait, have one answer.
If the trait is accepted, both put the same trait and the same companion in its place;
if not, both hold the same violations in the same order. -/
theorem entry_points_agree (invokes : t.Invokes first bare) :
    expand bare (Context.ofAttribute bare first.arguments)
        = expand t (({} : Settings).context false t) ∧
      ∀ item, TraitDecl.ofTokens item = .ok bare →
        (∃ e, expand t (({} : Settings).context false t) = .ok e ∧
          (t.replacement {}).report = [] ∧
          (t.replacement {}).tokens = t.stripped.tokens ++ e.companion.tokens ∧
          expandAttribute first.arguments item = t.stripped.tokens ++ e.companion.tokens) ∨
        (∃ r, expand t (({} : Settings).context false t) = .error r ∧ r ≠ [] ∧
          (t.replacement {}).report = r ∧
          expandAttribute first.arguments item = t.stripped.tokens ++ r.compileErrors) := by
  have same : expand bare (Context.ofAttribute bare first.arguments)
      = expand t (({} : Settings).context false t) := by
    rw [expand_of_invokes invokes, context_of_invokes invokes]
  refine ⟨same, fun item parses => ?_⟩
  obtain ⟨c, contributes, shows⟩ := replacement_trait (isAnnotated_of_invokes invokes)
  cases contributes with
  | @accepted _ cx e found accepted =>
      obtain rfl := (found_iff.mp found).2
      refine .inl ⟨e, accepted, shows.report, shows.tokens, ?_⟩
      rw [expandAttribute, parses]
      simp only [same, accepted, Expansion.tokens, declaration_of_expand accepted]
  | @rejected _ cx r found rejected =>
      obtain rfl := (found_iff.mp found).2
      refine .inr ⟨r, rejected, ne_nil_of_expand rejected, shows.report, ?_⟩
      rw [expandAttribute, parses]
      simp only [same, rejected, stripped_of_invokes invokes]
  | kept unannotated =>
      have annotations := unannotated t rfl
      rw [annotations_of_invokes invokes] at annotations
      cases annotations

namespace Sample

open Token

/-- A trait with a method that has a parameter, behind some attributes. -/
def item (attributes : List Token) : List Token :=
  attributes ++ code "trait IUp"
    ++ braces
      (marker (code "logger_message"
          ++ parens (number 1 ++ code ", Information ," ++ stringLiteral "up at \x7bport\x7d"))
        ++ code "fn up" ++ parens (code "& self , port : u16") ++ code ";")

/-- An annotation that asks for a name. -/
def trigger : Attribute :=
  { inner := false
    place := .nowhere
    rooted := false
    path := [⟨"logger_extensions", .nowhere⟩]
    input := .list .parenthesis (stringLiteral "Down") .nowhere .nowhere }

/-- What the compiler can leave in front of the trait: nothing, or two more annotations, one of
them with an argument of its own. -/
def remains : List (List Token) :=
  [[], marker (code "logger_extensions")
    ++ marker (code "logger_extensions" ++ parens (stringLiteral "Up"))]

theorem item_parses : ∀ attributes ∈ remains, ∃ bare,
    TraitDecl.ofTokens (item attributes) = .ok bare ∧ bare.methods.length = 1 ∧
      bare.annotations.length = attributes.length / 2 := by
  have checked : ∀ attributes ∈ remains, (TraitDecl.ofTokens (item attributes)).toOption.any
      (fun bare => bare.methods.length = 1 ∧ bare.annotations.length = attributes.length / 2)
        = true := by decide +kernel
  intro attributes remain
  obtain ⟨bare, parses, holds⟩ := (Option.any_eq_true _ _).mp (checked attributes remain)
  exact ⟨bare, ok_of_toOption parses, of_decide_eq_true holds⟩

end Sample

/-- A trait with one method and one annotation, and with three. -/
theorem entry_points_agree_sample :
    Sample.remains.Forall fun attributes => ∃ t bare,
      TraitDecl.ofTokens (Sample.item attributes) = .ok bare ∧ t.methods.length = 1 ∧
      t.annotations.length = 1 + attributes.length / 2 ∧ t.Invokes Sample.trigger bare ∧
      expand bare (Context.ofAttribute bare Sample.trigger.arguments)
          = expand t (({} : Settings).context false t) ∧
        ∀ item, TraitDecl.ofTokens item = .ok bare →
          (∃ e, expand t (({} : Settings).context false t) = .ok e ∧
            (t.replacement {}).report = [] ∧
            (t.replacement {}).tokens = t.stripped.tokens ++ e.companion.tokens ∧
            expandAttribute Sample.trigger.arguments item
              = t.stripped.tokens ++ e.companion.tokens) ∨
          (∃ r, expand t (({} : Settings).context false t) = .error r ∧ r ≠ [] ∧
            (t.replacement {}).report = r ∧
            expandAttribute Sample.trigger.arguments item
              = t.stripped.tokens ++ r.compileErrors) := by
  refine List.forall_iff_forall_mem.mpr fun attributes remain => ?_
  obtain ⟨bare, parses, one, more⟩ := Sample.item_parses attributes remain
  have invokes := invokes_annotate bare (show Sample.trigger.isTrigger = true by decide)
  have counted : (bare.annotate Sample.trigger).annotations.length
      = 1 + attributes.length / 2 := by
    rw [annotations_of_invokes invokes, List.length_cons, more, Nat.add_comm]
  exact ⟨bare.annotate Sample.trigger, bare, parses, one, counted, invokes,
    entry_points_agree invokes⟩

end LogInterface
