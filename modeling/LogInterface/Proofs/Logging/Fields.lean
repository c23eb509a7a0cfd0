/-
# Proofs.Logging.Fields -- field sets that keep their word

A field set says how many fields it has and answers for every index, and nothing ties
the two.  It is `Lawful` if it answers for exactly the indices in front of its length.
A sink reads a set up to the first index that is not answered.  For a lawful set this
is all of it (`Lawful.toList_getElem?`); otherwise fields behind a gap are lost, and
the length can say anything.

To find that index a sink asks once more than there are fields (`answers_eq`).  A question
converts the argument of the field that answers it, so the last one converts nothing
(`conversions_answers`).
-/
import LogInterface.Logging.Record

namespace LogInterface

set_option autoImplicit false

/-- The filled slots agree with the slots up to and with the first empty one. -/
theorem filledSlots_getElem? {slots : List (Option Field)} {i : Nat}
    (near : i ≤ (filledSlots slots).length) : (filledSlots slots)[i]? = slots[i]?.join := by
  induction slots generalizing i with
  | nil => rfl
  | cons slot slots ih =>
    cases slot with
    | none =>
      obtain rfl : i = 0 := Nat.le_zero.mp near
      rfl
    | some f =>
      cases i with
      | zero => rfl
      | succ i => exact ih (Nat.le_of_succ_le_succ near)

/-- The filled slots of slots that are all filled. -/
theorem filledSlots_map_some (fields : List Field) : filledSlots (fields.map some) = fields := by
  induction fields with
  | nil => rfl
  | cons f fields ih => exact congrArg (f :: ·) ih

namespace FieldSet

/-- There are fields under exactly the indices in front of the length. -/
def Lawful (fs : FieldSet) : Prop := ∀ i, (fs.field i).isSome ↔ i < fs.length

/-- A set of given fields. -/
theorem lawful_ofFields (fields : List Field) : Lawful ⟨fields.length, fields.map some⟩ := by
  intro i
  rw [FieldSet.field, List.getElem?_map]
  cases inside : fields[i]? with
  | none => simpa using List.getElem?_eq_none_iff.mp inside
  | some f => simpa using (List.getElem?_eq_some_iff.mp inside).1

namespace Lawful

variable {fs : FieldSet}

/-- As many fields are read as there are said to be. -/
theorem length_toList (lawful : fs.Lawful) : fs.toList.length = fs.length := by
  have agree {i : Nat} (near : i ≤ fs.toList.length) : fs.toList[i]? = fs.field i :=
    filledSlots_getElem? near
  -- Neither end lies in front of the other: a field stands in front of an end, and none at it.
  have notShorter : ¬ fs.length < fs.toList.length := fun shorter => by
    have atLength := agree (Nat.le_of_lt shorter)
    rw [List.getElem?_eq_getElem shorter] at atLength
    exact Nat.lt_irrefl _ ((lawful _).mp (atLength ▸ rfl))
  have notLonger : ¬ fs.toList.length < fs.length := fun longer => by
    have atEnd := agree (Nat.le_refl _)
    rw [List.getElem?_eq_none (Nat.le_refl _)] at atEnd
    have isSome := (lawful _).mpr longer
    rw [← atEnd] at isSome
    cases isSome
  omega

/-- The fields that are read are the fields under their indices. -/
theorem toList_getElem? (lawful : fs.Lawful) (i : Nat) : fs.toList[i]? = fs.field i := by
  by_cases near : i ≤ fs.toList.length
  · exact filledSlots_getElem? near
  · have outside : ¬ i < fs.length := by
      rw [← lawful.length_toList]
      omega
    rw [List.getElem?_eq_none (by omega), eq_comm, ← Option.not_isSome_iff_eq_none, lawful]
    exact outside

end Lawful

end FieldSet

/-! ## Walks -/

namespace FieldWalk

/-- What the steps of a walk answer: the fields and, where it ends, that there is none. -/
def answers : (steps : Nat) → FieldWalk → List (Option Field)
  | 0, _ => []
  | steps + 1, w =>
      match w.next with
      | (some f, w) => some f :: answers steps w
      | (none, _) => [none]

theorem answers_eq (fs : FieldSet) {steps index : Nat}
    (enough : fs.slots.length - index < steps) :
    answers steps ⟨fs, index⟩ = (filledSlots (fs.slots.drop index)).map some ++ [none] := by
  induction steps generalizing index with
  | zero => cases enough
  | succ steps ih =>
    rw [answers, next, FieldSet.field]
    rcases Nat.lt_or_ge index fs.slots.length with inside | outside
    · rw [List.getElem?_eq_getElem inside, List.drop_eq_getElem_cons inside]
      cases fs.slots[index] with
      | none => rfl
      | some f =>
        have further : fs.slots.length - (index + 1) < steps := by omega
        exact congrArg (some f :: ·) (ih further)
    · rw [List.getElem?_eq_none outside, List.drop_eq_nil_of_le outside]
      rfl

end FieldWalk

/-- What a walk over all fields answers. -/
def FieldSet.answers (fs : FieldSet) : List (Option Field) :=
  FieldWalk.answers (fs.slots.length + 1) ⟨fs, 0⟩

/-- **A walk over all fields converts nothing where it ends.** -/
theorem FieldSet.conversions_answers (fs : FieldSet) :
    fs.answers = fs.toList.map some ++ [none] ∧
      fs.answers.filterMap (·.bind Field.argument) = fs.conversions := by
  have answered : fs.answers = fs.toList.map some ++ [none] :=
    FieldWalk.answers_eq fs (by omega)
  refine ⟨answered, ?_⟩
  rw [answered, List.filterMap_append, List.filterMap_map]
  exact List.append_nil _

end LogInterface
