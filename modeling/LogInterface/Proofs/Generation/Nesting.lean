/-
# Proofs.Generation.Nesting -- annotated traits inside trees

The generator looks for annotated traits with one walk over a tree.  A trait is
found by it exactly if its declaration occurs somewhere in the tree
(`mem_declaredTraits`), at any depth and below any kind of node.  A tree is `Free`
if no annotated trait occurs in it; this passes to the parts and comes from them
(`free_iff`), so `Free` can be computed part by part by the simp lemmas below.

The parts of a trait without the generator's attributes are parts that it had before
(`stripped_parts`), so a trait that was free inside is free as a whole afterwards.
-/
import LogInterface.Proofs.Generation.Contribution

namespace LogInterface

set_option autoImplicit false

/-! ## Declared traits -/

theorem declaration?_mark (t : Tree) (m : Mention) : (t.mark m).declaration? = m.declaration? := by
  rw [Tree.mark]
  split <;> rfl

theorem own_declares {t : Tree} {d : TraitDecl} :
    (∃ m ∈ t.own, m.declaration? = some d) ↔ d ∈ t.declares := by
  simp [Tree.own, or_and_right, exists_or, Mention.declaration?]

/-- The walk over a tree finds every declaration in it and nothing else. -/
theorem mem_declaredTraits {t : Tree} {d : TraitDecl} :
    d ∈ t.declaredTraits ↔ (Tree.trait d).Occurs t := by
  rw [Tree.declaredTraits, List.mem_filterMap]
  induction t using Tree.induction_parts with
  | step t ih =>
      have split : (∃ m ∈ t.mentions, m.declaration? = some d)
          ↔ d ∈ t.declares ∨ ∃ u ∈ t.parts, (Tree.trait d).Occurs u := by
        constructor
        · rintro ⟨m, member, declares⟩
          obtain byItself | ⟨u, part, n, inPart, rfl⟩ := mem_mentions_iff.mp member
          · exact .inl (own_declares.mp ⟨m, byItself, declares⟩)
          · rw [declaration?_mark] at declares
            exact .inr ⟨u, part, (ih u part).mp ⟨n, inPart, declares⟩⟩
        · rintro (declares | ⟨u, part, occurs⟩)
          · obtain ⟨m, byItself, declares⟩ := own_declares.mpr declares
            exact ⟨m, mem_mentions_iff.mpr (.inl byItself), declares⟩
          · obtain ⟨n, member, declares⟩ := (ih u part).mpr occurs
            exact ⟨t.mark n, mem_mentions_iff.mpr (.inr ⟨u, part, n, member, rfl⟩),
              by rwa [declaration?_mark]⟩
      rw [split]
      constructor
      · rintro (declares | ⟨u, part, occurs⟩)
        · match t, declares with
          | .trait _, declares =>
              cases List.mem_singleton.mp declares
              exact .here
        · exact .inPart part occurs
      · intro occurs
        cases occurs with
        | here => exact .inl (List.mem_singleton.mpr rfl)
        | inPart part occurs => exact .inr ⟨_, part, occurs⟩

theorem mem_annotatedTraits {t : Tree} {d : TraitDecl} :
    d ∈ t.annotatedTraits ↔ (Tree.trait d).Occurs t ∧ d.isAnnotated = true := by
  rw [Tree.annotatedTraits, List.mem_filter, mem_declaredTraits]

/-! ## Trees without annotated traits -/

/-- No annotated trait occurs in the tree. -/
def Tree.Free (t : Tree) : Prop := ∀ d, (Tree.trait d).Occurs t → d.isAnnotated = false

/-- No annotated trait occurs in any of the trees. -/
def FreeAll (ts : List Tree) : Prop := ∀ t ∈ ts, t.Free

theorem annotatedTraits_eq_nil {t : Tree} : t.annotatedTraits = [] ↔ t.Free := by
  rw [List.eq_nil_iff_forall_not_mem]
  simp only [mem_annotatedTraits, not_and, Bool.not_eq_true]
  rfl

section FreeAll

variable {t : Tree} {ts us : List Tree}

@[simp] theorem freeAll_nil : FreeAll [] := fun _ member => nomatch member

@[simp] theorem freeAll_cons : FreeAll (t :: ts) ↔ t.Free ∧ FreeAll ts := List.forall_mem_cons

@[simp] theorem freeAll_append : FreeAll (ts ++ us) ↔ FreeAll ts ∧ FreeAll us :=
  List.forall_mem_append

@[simp] theorem freeAll_map {α : Type} {f : α → Tree} {xs : List α} :
    FreeAll (xs.map f) ↔ ∀ x ∈ xs, (f x).Free :=
  List.forall_mem_map

@[simp] theorem freeAll_flatMap {α : Type} {f : α → List Tree} {xs : List α} :
    FreeAll (xs.flatMap f) ↔ ∀ x ∈ xs, FreeAll (f x) := by
  simp only [FreeAll, List.mem_flatMap, forall_exists_index, and_imp]
  exact ⟨fun all x member t part => all t x member part,
    fun all t x member part => all x member t part⟩

@[simp] theorem freeAll_toList {o : Option Tree} : FreeAll o.toList ↔ ∀ t, o = some t → t.Free := by
  cases o <;> simp

theorem free_iff : t.Free ↔ (∀ d ∈ t.declares, d.isAnnotated = false) ∧ FreeAll t.parts := by
  constructor
  · intro free
    refine ⟨fun d declares => free d ?_, fun u part d occurs => free d (.inPart part occurs)⟩
    match t, declares with
    | .trait _, declares =>
        cases List.mem_singleton.mp declares
        exact .here
  · rintro ⟨own, parts⟩ d occurs
    cases occurs with
    | here => exact own d (List.mem_singleton.mpr rfl)
    | inPart part occurs => exact parts _ part d occurs

theorem free_of_declares (none : t.declares = []) : t.Free ↔ FreeAll t.parts := by
  rw [free_iff, none]
  simp

@[simp] theorem free_token (t : Token) : (Tree.token t).Free :=
  (free_of_declares rfl).mpr freeAll_nil

@[simp] theorem free_node {kind : Kind} : (Tree.node kind ts).Free ↔ FreeAll ts :=
  free_of_declares rfl

@[simp] theorem free_group {d : Delimiter} {opens closes : Place} :
    (Tree.group d opens closes ts).Free ↔ FreeAll ts :=
  free_of_declares rfl

@[simp] theorem free_absent : Tree.absent.Free := free_node.mpr freeAll_nil

@[simp] theorem free_generics {g : Generics} :
    (Tree.generics g).Free ↔ ∀ p ∈ g.params, p.tree.Free :=
  (free_of_declares rfl).trans freeAll_map

@[simp] theorem freeAll_ofTokens (tokens : List Token) : FreeAll (Tree.ofTokens tokens) := by
  simp [Tree.ofTokens]

theorem free_signature {s : Signature} :
    (Tree.signature s).Free ↔ FreeAll (Tree.signature s).parts :=
  free_of_declares rfl

/-- A trait is free if it is not annotated and free inside. -/
theorem free_trait {d : TraitDecl} :
    (Tree.trait d).Free ↔ d.isAnnotated = false ∧ FreeAll (Tree.trait d).parts := by
  rw [free_iff]
  simp [Tree.declares]

end FreeAll

/-! ## Traits without the generator's attributes -/

theorem stripped_isAnnotated (t : TraitDecl) : t.stripped.isAnnotated = false := by
  simp [TraitDecl.isAnnotated, TraitDecl.stripped]

theorem stripped_parts {t : TraitDecl} {u : Tree} (part : u ∈ (Tree.trait t.stripped).parts) :
    u ∈ (Tree.trait t).parts := by
  simp only [Tree.parts, TraitDecl.stripped, List.mem_append, List.mem_cons] at part ⊢
  refine part.imp (fun isAttribute => ?_)
    (Or.imp_right (Or.imp_right (Or.imp_right fun item => ?_)))
  · obtain ⟨a, member, rfl⟩ := List.mem_map.mp isAttribute
    exact List.mem_map_of_mem (List.mem_filter.mp member).1
  · obtain ⟨i, inItems, inItem⟩ := List.mem_flatMap.mp item
    obtain ⟨i, isItem, rfl⟩ := List.mem_map.mp inItems
    refine List.mem_flatMap.mpr ⟨i, isItem, ?_⟩
    cases i with
    | method m =>
        simp only [TraitItem.parts, List.mem_append] at inItem ⊢
        refine inItem.imp_left fun isAttribute => ?_
        obtain ⟨a, member, rfl⟩ := List.mem_map.mp isAttribute
        exact List.mem_map_of_mem (List.mem_filter.mp member).1
    | other _ => exact inItem

/-- What is annotated in a stripped trait stood inside the trait before. -/
theorem annotatedTraits_of_stripped {t d : TraitDecl}
    (left : d ∈ (Tree.trait t.stripped).annotatedTraits) : d ∈ (Tree.trait t).annotatedTraits := by
  obtain ⟨occurs, annotated⟩ := mem_annotatedTraits.mp left
  refine mem_annotatedTraits.mpr ⟨?_, annotated⟩
  cases occurs with
  | here => cases annotated.symm.trans (stripped_isAnnotated t)
  | inPart part below => exact .inPart (stripped_parts part) below

theorem stripped_free {t : TraitDecl} (inside : FreeAll (Tree.trait t).parts) :
    (Tree.trait t.stripped).Free :=
  free_trait.mpr ⟨stripped_isAnnotated t, fun u part => inside u (stripped_parts part)⟩

end LogInterface
