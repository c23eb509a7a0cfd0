/-
# Proofs.Interface.Firsts -- the first of each kind

Some rules speak once about several things: once about an id that many methods declare, once
about a name that many placeholders have.  They go along a list and remember what they have
seen.  `firsts` is that walk for any kind of thing, and two lemmas say what it keeps: of every
kind the first thing of the whole list (`mem_firsts`), in the order of these first things
(`firsts_ordered`).
-/
import LogInterface.Interface.Validation
import Mathlib.Data.List.Basic

namespace LogInterface

set_option autoImplicit false

section

variable {α κ : Type} [DecidableEq κ]

/-- The first thing of each kind, apart from the kinds that were seen before. -/
def firsts (kind : α → κ) : (seen : List κ) → List α → List α
  | _, [] => []
  | seen, x :: xs =>
      if kind x ∈ seen then firsts kind seen xs else x :: firsts kind (kind x :: seen) xs

variable {kind : α → κ} {seen : List κ} {xs : List α}

/-- What is kept is the first thing of its kind, and of every kind that was not seen before there
is one. -/
theorem mem_firsts {x : α} :
    x ∈ firsts kind seen xs ↔ kind x ∉ seen ∧ xs.find? (kind · = kind x) = some x := by
  fun_induction firsts kind seen xs with
  | case1 => simp
  | case2 seen y ys known ih =>
      rw [ih]
      refine and_congr_right fun fresh => ?_
      have other : kind y ≠ kind x := fun same => fresh (same ▸ known)
      rw [List.find?_cons_of_neg (by simpa using other)]
  | case3 seen y ys unknown ih =>
      rw [List.mem_cons, ih, List.mem_cons, not_or]
      by_cases same : kind y = kind x
      · rw [List.find?_cons_of_pos (by simpa using same), Option.some.injEq, ← same]
        constructor
        · rintro (rfl | ⟨⟨other, -⟩, -⟩)
          · exact ⟨unknown, rfl⟩
          · exact absurd rfl other
        · rintro ⟨-, rfl⟩
          exact .inl rfl
      · rw [List.find?_cons_of_neg (by simpa using same)]
        have differ : x ≠ y := fun equal => same (equal ▸ rfl)
        simp [differ, Ne.symm same]

/-- The kinds of what is kept. -/
theorem mem_map_firsts {k : κ} :
    k ∈ (firsts kind seen xs).map kind ↔ k ∉ seen ∧ k ∈ xs.map kind := by
  rw [List.mem_map]
  constructor
  · rintro ⟨x, member, rfl⟩
    obtain ⟨fresh, found⟩ := mem_firsts.mp member
    exact ⟨fresh, List.mem_map_of_mem (List.mem_of_find?_eq_some found)⟩
  · rintro ⟨fresh, member⟩
    obtain ⟨y, isThere, ofKind⟩ := List.mem_map.mp member
    have found : (xs.find? (kind · = k)).isSome :=
      List.find?_isSome.mpr ⟨y, isThere, decide_eq_true ofKind⟩
    obtain ⟨x, first⟩ := Option.isSome_iff_exists.mp found
    have same : kind x = k := by simpa using List.find?_some first
    exact ⟨x, mem_firsts.mpr ⟨same ▸ fresh, same ▸ first⟩, same⟩

/-- What is kept stands in the order in which the kinds come up first. -/
theorem firsts_ordered :
    (firsts kind seen xs).Pairwise fun x y =>
      (xs.map kind).idxOf (kind x) < (xs.map kind).idxOf (kind y) := by
  fun_induction firsts kind seen xs with
  | case1 => exact .nil
  | case2 seen z zs known ih =>
      refine ih.imp_of_mem fun {x y} memberX memberY before => ?_
      have otherX : kind z ≠ kind x := fun same => (mem_firsts.mp memberX).1 (same ▸ known)
      have otherY : kind z ≠ kind y := fun same => (mem_firsts.mp memberY).1 (same ▸ known)
      rw [List.map_cons, List.idxOf_cons_ne _ otherX, List.idxOf_cons_ne _ otherY]
      exact Nat.succ_lt_succ before
  | case3 seen z zs unknown ih =>
      have other {x : α} (member : x ∈ firsts kind (kind z :: seen) zs) : kind z ≠ kind x :=
        fun same => (mem_firsts.mp member).1 (same ▸ List.mem_cons_self)
      refine List.pairwise_cons.mpr ⟨fun y member => ?_, ?_⟩
      · rw [List.map_cons, List.idxOf_cons_self, List.idxOf_cons_ne _ (other member)]
        exact Nat.succ_pos _
      · refine ih.imp_of_mem fun {x y} memberX memberY before => ?_
        rw [List.map_cons, List.idxOf_cons_ne _ (other memberX),
          List.idxOf_cons_ne _ (other memberY)]
        exact Nat.succ_lt_succ before

example : firsts (· % 3) [] [4, 7, 5, 3, 8] = [4, 5, 3] := by decide

end

/-! ## The walks of the rules -/

theorem declaredIds_eq (seen : List Int) (ms : List LogMethod) :
    declaredIds seen ms = (firsts (·.event.value) seen ms).map (·.event.value) := by
  fun_induction declaredIds seen ms with
  | case1 => rfl
  | case2 seen m ms known ih => rw [firsts, if_pos (List.contains_iff_mem.mp known), ih]
  | case3 seen m ms new ih =>
      rw [firsts, if_neg fun member => new (List.contains_iff_mem.mpr member), ih, List.map_cons]

theorem firstOfName_eq (seen : List String) (holes : List (String × Nat)) :
    LogMethod.firstOfName seen holes = firsts Prod.fst seen holes := by
  fun_induction LogMethod.firstOfName seen holes with
  | case1 => rfl
  | case2 seen hole holes known ih => rw [firsts, if_pos (List.contains_iff_mem.mp known), ih]
  | case3 seen hole holes new ih =>
      rw [firsts, if_neg fun member => new (List.contains_iff_mem.mpr member), ih]

end LogInterface
