/-
# Proofs.Interface.SnakeCase -- what snake case changes

Snake case puts every capital in its lower-case form and sets underscores in front of some of them.
`Spaced` says where an underscore may be set: between two characters of the name, neither of which
is one.  Nothing else happens to a name (`snakeFrom_spaced`), so its own underscores are found
again where they were, at its ends and side by side (`Spaced.head?`, `Spaced.getLast?`,
`Spaced.doubled_iff`).

A lower-case form may be a capital still: the mathematical letters are capitals without a
lower-case form.  In a name without such letters no capital is left, and a second run changes
nothing (`snakeCase_only_separates`).
-/
import LogInterface.Interface.Naming
import LogInterface.Proofs.Text.Letter
import Mathlib.Data.List.Basic

namespace LogInterface.Naming

open LogInterface.Text

set_option autoImplicit false

/-! ## Setting underscores -/

/-- The second list is the lower-case form of the first, with underscores set in it.  One is set
only between two characters of the first list of which neither is one; `previous` is the character
before the list. -/
inductive Spaced : (previous : Option Char) → List Char → List Char → Prop where
  | nil {previous : Option Char} : Spaced previous [] []
  | keep {previous : Option Char} {c : Char} {cs out : List Char} :
      Spaced (some c) cs out → Spaced previous (c :: cs) (lower c ++ out)
  | set {p c : Char} {cs out : List Char} : p ≠ '_' → c ≠ '_' →
      Spaced (some c) cs out → Spaced (some p) (c :: cs) ('_' :: (lower c ++ out))

/-- Are there two underscores side by side? -/
def Doubled (cs : List Char) : Prop := ['_', '_'] <:+: cs

theorem lower_underscore : lower '_' = ['_'] := lower_eq_self _ (by decide)

/-- A character that is no underscore has a form without any. -/
theorem notMem_lower {c : Char} (other : c ≠ '_') : '_' ∉ lower c :=
  mt underscore_mem_lower other

theorem filter_lower {c : Char} (other : c ≠ '_') : (lower c).filter (· ≠ '_') = lower c := by
  refine List.filter_eq_self.mpr fun x member => decide_eq_true ?_
  rintro rfl
  exact notMem_lower other member

theorem head?_lower_append (c : Char) (out : List Char) :
    (lower c ++ out).head? = some '_' ↔ c = '_' := by
  by_cases same : c = '_'
  · subst same
    rw [lower_underscore]
    exact iff_of_true rfl rfl
  · refine iff_of_false (fun starts => notMem_lower same ?_) same
    rw [List.head?_append_of_ne_nil _ (lower_ne_nil c)] at starts
    exact List.mem_of_mem_head? starts

theorem doubled_cons {c : Char} {cs : List Char} :
    Doubled (c :: cs) ↔ (c = '_' ∧ cs.head? = some '_') ∨ Doubled cs := by
  rw [Doubled, List.infix_cons_iff, List.cons_prefix_cons, eq_comm, Doubled]
  refine or_congr_left (and_congr_right' ?_)
  cases cs with
  | nil => simp
  | cons d ds => simp [eq_comm]

/-- In front of other characters only underscores can become doubled. -/
theorem doubled_append {cs : List Char} (others : '_' ∉ cs) (out : List Char) :
    Doubled (cs ++ out) ↔ Doubled out := by
  induction cs with
  | nil => rfl
  | cons c cs ih =>
      rw [List.mem_cons, not_or] at others
      rw [List.cons_append, doubled_cons, ih others.2]
      exact or_iff_right fun both => others.1 both.1.symm

theorem doubled_lower_append {c : Char} (other : c ≠ '_') (out : List Char) :
    Doubled (lower c ++ out) ↔ Doubled out := doubled_append (notMem_lower other) out

namespace Spaced

variable {previous : Option Char} {cs out : List Char}

/-- Without the underscores there is nothing but the lower-case form. -/
theorem filter (spaced : Spaced previous cs out) :
    out.filter (· ≠ '_') = (cs.filter (· ≠ '_')).flatMap lower := by
  have first (c : Char) (cs : List Char) :
      ((c :: cs).filter (· ≠ '_')).flatMap lower
        = (lower c).filter (· ≠ '_') ++ (cs.filter (· ≠ '_')).flatMap lower := by
    by_cases same : c = '_'
    · subst same
      rw [lower_underscore]
      rfl
    · rw [List.filter_cons_of_pos (by simpa using same), List.flatMap_cons, filter_lower same]
  induction spaced with
  | nil => rfl
  | keep _ ih => rw [List.filter_append, ih, first]
  | set _ _ _ ih => rw [List.filter_cons_of_neg (by simp), List.filter_append, ih, first]

theorem eq_nil_iff (spaced : Spaced previous cs out) : out = [] ↔ cs = [] := by
  cases spaced with
  | nil => exact Iff.rfl
  | keep => simp [lower_ne_nil]
  | set => simp

/-- At the start, and behind an underscore, none is set. -/
theorem head? (spaced : Spaced previous cs out) (start : ∀ p, previous = some p → p = '_') :
    out.head? = some '_' ↔ cs.head? = some '_' := by
  cases spaced with
  | nil => exact Iff.rfl
  | keep => rw [head?_lower_append, List.head?_cons, Option.some.injEq]
  | set other => exact absurd (start _ rfl) other

/-- At the end none is set. -/
theorem getLast? (spaced : Spaced previous cs out) :
    out.getLast? = some '_' ↔ cs.getLast? = some '_' := by
  -- What the last character becomes ends in an underscore if that is what it is.
  have last (c : Char) : (lower c).getLast? = some '_' ↔ c = '_' := by
    refine ⟨fun ends => underscore_mem_lower (List.mem_of_getLast? ends), ?_⟩
    rintro rfl
    rw [lower_underscore]
    rfl
  have step {c : Char} {cs out : List Char} (spaced : Spaced (some c) cs out)
      (ih : out.getLast? = some '_' ↔ cs.getLast? = some '_') :
      (lower c ++ out).getLast? = some '_' ↔ (c :: cs).getLast? = some '_' := by
    cases cs with
    | nil =>
        obtain rfl := spaced.eq_nil_iff.mpr rfl
        rw [List.append_nil, last]
        simp
    | cons d ds =>
        have some : out ≠ [] := mt spaced.eq_nil_iff.mp (List.cons_ne_nil d ds)
        rw [List.getLast?_append_of_ne_nil _ some, ih, List.getLast?_cons_cons]
  induction spaced with
  | nil => exact Iff.rfl
  | keep spaced ih => exact step spaced ih
  | @set _ c _ out _ _ spaced ih =>
      have some : lower c ++ out ≠ [] := List.append_ne_nil_of_left_ne_nil (lower_ne_nil c) out
      rw [← step spaced ih, ← List.singleton_append, List.getLast?_append_of_ne_nil _ some]

/-- None is set beside another. -/
theorem doubled_iff (spaced : Spaced previous cs out) : Doubled out ↔ Doubled cs := by
  have step {c : Char} {cs out : List Char} (spaced : Spaced (some c) cs out)
      (ih : Doubled out ↔ Doubled cs) : Doubled (lower c ++ out) ↔ Doubled (c :: cs) := by
    by_cases same : c = '_'
    · subst same
      rw [lower_underscore, List.singleton_append, doubled_cons, doubled_cons, ih]
      refine or_congr_left (and_congr_right' (spaced.head? ?_))
      rintro p ⟨⟩
      rfl
    · rw [doubled_lower_append same, ih, doubled_cons]
      exact (or_iff_right fun both => same both.1).symm
  induction spaced with
  | nil => exact Iff.rfl
  | keep spaced ih => exact step spaced ih
  | set _ other spaced ih =>
      rw [doubled_cons, step spaced ih, head?_lower_append]
      exact or_iff_right fun both => other both.2

/-- What holds of an underscore and of the lower-case forms holds of all characters. -/
theorem forall_mem {holds : Char → Prop} (spaced : Spaced previous cs out)
    (underscore : holds '_') (lowered : ∀ c ∈ cs, ∀ x ∈ lower c, holds x) :
    ∀ x ∈ out, holds x := by
  induction spaced with
  | nil => exact List.forall_mem_nil _
  | keep _ ih =>
      obtain ⟨first, others⟩ := List.forall_mem_cons.mp lowered
      exact List.forall_mem_append.mpr ⟨first, ih others⟩
  | set _ _ _ ih =>
      obtain ⟨first, others⟩ := List.forall_mem_cons.mp lowered
      exact List.forall_mem_cons.mpr
        ⟨underscore, List.forall_mem_append.mpr ⟨first, ih others⟩⟩

/-- Nothing is left out. -/
theorem length_le (spaced : Spaced previous cs out) : cs.length ≤ out.length := by
  have step {c : Char} {cs out : List Char} (ih : cs.length ≤ out.length) :
      (c :: cs).length ≤ (lower c ++ out).length := by
    have one : 0 < (lower c).length := List.length_pos_of_ne_nil (lower_ne_nil c)
    rw [List.length_append, List.length_cons]
    omega
  induction spaced with
  | nil => exact Nat.le_refl 0
  | keep _ ih => exact step ih
  | set _ _ _ ih => exact Nat.le_succ_of_le (step ih)

end Spaced

/-! ## Snake case -/

/-- No word starts behind an underscore. -/
theorem ne_underscore_of_startsWord {previous next : Option Char}
    (starts : startsWord previous next = true) : ∃ p, previous = some p ∧ p ≠ '_' := by
  cases previous with
  | none => cases starts
  | some p =>
      refine ⟨p, rfl, ?_⟩
      rintro rfl
      cases starts

/-- What is written behind `previous` is the lower-case form of what was there, with underscores
set in it. -/
theorem snakeFrom_spaced (previous : Option Char) (written cs : List Char) :
    ∃ out, snakeFrom previous written cs = written.reverse ++ out ∧ Spaced previous cs out := by
  induction cs generalizing previous written with
  | nil => exact ⟨[], (List.append_nil _).symm, .nil⟩
  | cons c cs ih =>
      rw [snakeFrom]
      by_cases upper : isUpper c = true
      · rw [if_pos upper]
        have other : c ≠ '_' := by
          rintro rfl
          exact absurd upper (by decide)
        obtain ⟨out, goesOn, spaced⟩ := ih (some c) ((lower c).reverse
          ++ if startsWord previous cs.head? && written.head? != some '_' then '_' :: written
            else written)
        dsimp only
        rw [goesOn, List.reverse_append, List.reverse_reverse]
        split
        · rename_i set
          obtain ⟨p, rfl, before⟩ := ne_underscore_of_startsWord (Bool.and_eq_true _ _ ▸ set).1
          exact ⟨_, by simp, .set before other spaced⟩
        · exact ⟨_, by simp, .keep spaced⟩
      · rw [if_neg upper]
        obtain ⟨out, goesOn, spaced⟩ := ih (some c) (c :: written)
        have same := lower_eq_self c (Bool.eq_false_iff.mpr upper)
        exact ⟨_, by simp [goesOn, same], .keep spaced⟩

theorem snakeCase_spaced (name : String) :
    Spaced none name.toList (snakeCase name).toList := by
  obtain ⟨out, written, spaced⟩ := snakeFrom_spaced none [] name.toList
  rw [snakeCase, String.toList_ofList, written]
  exact spaced

/-- Without capitals there is nothing to do. -/
theorem snakeFrom_of_small {cs : List Char} (small : ∀ c ∈ cs, isUpper c = false)
    (previous : Option Char) (written : List Char) :
    snakeFrom previous written cs = written.reverse ++ cs := by
  induction cs generalizing previous written with
  | nil => exact (List.append_nil _).symm
  | cons c cs ih =>
      obtain ⟨first, others⟩ := List.forall_mem_cons.mp small
      rw [snakeFrom, if_neg (by simp [first]), ih others, List.reverse_cons, List.append_assoc]
      rfl

theorem snakeCase_of_small {name : String} (small : ∀ c ∈ name.toList, isUpper c = false) :
    snakeCase name = name := by
  rw [snakeCase, snakeFrom_of_small small]
  exact String.ofList_toList

/-- **Snake case loses and invents nothing but case and underscores.**  Without underscores it is
the lower-case form of the name without its own; an underscore is set only between two characters
that are none, so those at the ends and the doubled ones are those of the name; and where the
lower-case forms of capitals are no capitals, none is left, and nothing is left to do. -/
theorem snakeCase_only_separates (name : String)
    (settled : ∀ c ∈ name.toList, isUpper c = true → ∀ x ∈ lower c, isUpper x = false) :
    ((snakeCase name).toList.filter (· ≠ '_')
        = (name.toList.filter (· ≠ '_')).flatMap lower) ∧
      Spaced none name.toList (snakeCase name).toList ∧
      ((snakeCase name).toList.head? = some '_' ↔ name.toList.head? = some '_') ∧
      ((snakeCase name).toList.getLast? = some '_' ↔ name.toList.getLast? = some '_') ∧
      (Doubled (snakeCase name).toList ↔ Doubled name.toList) ∧
      (∀ c ∈ (snakeCase name).toList, isUpper c = false) ∧
      snakeCase (snakeCase name) = snakeCase name := by
  have spaced := snakeCase_spaced name
  have small : ∀ c ∈ (snakeCase name).toList, isUpper c = false := by
    refine spaced.forall_mem (by decide) fun c member x isForm => ?_
    cases upper : isUpper c with
    | true => exact settled c member upper x isForm
    | false =>
        rw [lower_eq_self c upper, List.mem_singleton] at isForm
        exact isForm ▸ upper
  exact ⟨spaced.filter, spaced, spaced.head? nofun, spaced.getLast?, spaced.doubled_iff, small,
    snakeCase_of_small small⟩

/-- An acronym, a digit, underscores of the name's own, and a capital with a lower-case form of two
characters. -/
theorem snakeCase_only_separates_acronym :
    (∀ c ∈ "_HTTPServer2Log__İd_".toList, isUpper c = true → ∀ x ∈ lower c, isUpper x = false) ∧
      snakeCase "_HTTPServer2Log__İd_" = "_http_server2_log__i̇d_" ∧
      snakeCase "_http_server2_log__i̇d_" = "_http_server2_log__i̇d_" := by
  have checked : "_HTTPServer2Log__İd_".toList.all (fun c =>
      !isUpper c || (lower c).all fun x => !isUpper x) = true := by decide +kernel
  have settled : ∀ c ∈ "_HTTPServer2Log__İd_".toList,
      isUpper c = true → ∀ x ∈ lower c, isUpper x = false := by
    intro c member upper x isForm
    have own := List.all_eq_true.mp checked c member
    rw [upper, Bool.not_true, Bool.false_or] at own
    exact Bool.not_eq_true' _ ▸ List.all_eq_true.mp own x isForm
  have written : snakeCase "_HTTPServer2Log__İd_" = "_http_server2_log__i̇d_" := by decide +kernel
  have again := (snakeCase_only_separates _ settled).2.2.2.2.2.2
  rw [written] at again
  exact ⟨settled, written, again⟩

end LogInterface.Naming
