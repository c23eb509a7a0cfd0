/-
# Proofs.Logging.Walk -- walking over fields and looking them up

A walk asks a field set for one index after the other, up to the first that is not answered, and
never for the length.  The number of fields that are said to follow, and the look-up by a name, go
by the length instead.  Only the law of the set ties the two together:

* a call answers the index of the walk and moves it on, and at the length it stays where it is
  (`next_lawful`), so after any number of calls the index is known (`after_lawful`);
* what further calls yield is the rest of the fields (`yields_lawful`);
* a look-up goes through the same list (`get?_lawful`), and so does a look-up in the record that
  a capturing sink keeps (`field?_captured`).
-/
import LogInterface.Logging.Logger
import LogInterface.Proofs.Logging.Fields

namespace LogInterface

set_option autoImplicit false

/-- A walk over all fields, before its first call. -/
def FieldSet.walk (fs : FieldSet) : FieldWalk := ⟨fs, 0⟩

/-! ## Calls -/

namespace FieldWalk

def after : (calls : Nat) → FieldWalk → FieldWalk
  | 0, w => w
  | calls + 1, w => after calls w.next.2

def yields : (calls : Nat) → FieldWalk → List Field
  | 0, _ => []
  | calls + 1, w => w.next.1.toList ++ yields calls w.next.2

variable {fs : FieldSet}

/-- One call answers the index and moves on, but never behind the length. -/
theorem next_lawful (lawful : fs.Lawful) {index : Nat} (within : index ≤ fs.length) :
    next ⟨fs, index⟩ = (fs.field index, ⟨fs, min (index + 1) fs.length⟩) := by
  have answered := lawful index
  rw [next]
  cases found : fs.field index with
  | some f =>
    have inside : index < fs.length := by simpa [found] using answered
    have moved : min (index + 1) fs.length = index + 1 := by omega
    rw [moved]
  | none =>
    have outside : ¬index < fs.length := by simpa [found] using answered
    have stays : min (index + 1) fs.length = index := by omega
    rw [stays]

/-- Calls move on one by one, up to the length. -/
theorem after_lawful (lawful : fs.Lawful) (calls : Nat) {index : Nat}
    (within : index ≤ fs.length) :
    after calls ⟨fs, index⟩ = ⟨fs, min (index + calls) fs.length⟩ := by
  induction calls generalizing index with
  | zero =>
    have stays : min (index + 0) fs.length = index := by omega
    rw [after, stays]
  | succ calls ih =>
    rw [after, next_lawful lawful within, ih (by omega)]
    have same : min (min (index + 1) fs.length + calls) fs.length
        = min (index + (calls + 1)) fs.length := by omega
    rw [same]

/-- Calls yield what is left of the fields, in their order, as far as the calls go. -/
theorem yields_lawful (lawful : fs.Lawful) (calls : Nat) {index : Nat}
    (within : index ≤ fs.length) :
    yields calls ⟨fs, index⟩ = (fs.toList.drop index).take calls := by
  have full := lawful.length_toList
  induction calls generalizing index with
  | zero => rw [yields, List.take_zero]
  | succ calls ih =>
    rw [yields, next_lawful lawful within, ih (by omega), ← lawful.toList_getElem? index]
    by_cases inside : index < fs.toList.length
    · have moved : min (index + 1) fs.length = index + 1 := by omega
      rw [List.getElem?_eq_getElem inside, moved, List.drop_eq_getElem_cons inside,
        List.take_succ_cons]
      rfl
    · have ended : fs.toList.length ≤ min (index + 1) fs.length := by omega
      rw [List.getElem?_eq_none (by omega), List.drop_eq_nil_of_le ended,
        List.drop_eq_nil_of_le (by omega), List.take_nil, List.take_nil]
      rfl

end FieldWalk

/-! ## Look-ups -/

/-- Elements that are asked for by their indices are all elements. -/
theorem filterMap_range_getElem? {α : Type} (xs : List α) :
    (List.range xs.length).filterMap (fun i => xs[i]?) = xs := by
  induction xs with
  | nil => rfl
  | cons x xs ih =>
    have first : (fun i => (x :: xs)[i]?) 0 = some x := rfl
    rw [List.length_cons, List.range_succ_eq_map, List.filterMap_cons_some first,
      List.filterMap_map]
    exact congrArg (x :: ·) ih

namespace FieldSet

/-- A look-up goes through the fields that a walk yields. -/
theorem get?_lawful {fs : FieldSet} (lawful : fs.Lawful) (name : String) :
    fs.get? name = (fs.toList.find? (·.name == name)).map Field.value := by
  have asked : (List.range fs.length).filterMap fs.field = fs.toList := by
    have answers : fs.field = fun i => fs.toList[i]? := by
      funext i
      exact (lawful.toList_getElem? i).symm
    rw [answers, ← lawful.length_toList, filterMap_range_getElem?]
  rw [get?, asked]

end FieldSet

/-- A look-up in a kept record finds the text of the first field with the name. -/
theorem Capture.field?_captured (c : Capture) (r : Record) (name : String) :
    (c.captured r).field? name
      = (r.fields.toList.find? (·.name == name)).map fun f => f.value.text := by
  rw [CapturedRecord.field?, captured, List.find?_map, Option.map_map]
  rfl

/-! ## Agreement -/

/-- A field set that is read alike in all ways: by its indices, by a walk, by what is said to
follow in the walk, and by the names of its fields. -/
structure FieldSet.ReadsAlike (fs : FieldSet) : Prop where
  /-- The calls of a walk answer the indices in turn. -/
  answers : ∀ calls, (fs.walk.after calls).next.1 = fs.field calls
  /-- There are answers up to the length, and behind it there is none for ever. -/
  ends : ∀ calls, (fs.walk.after calls).next.1.isSome ↔ calls < fs.length
  /-- However far a walk has come, what is said to follow is the number of fields that all
  further calls yield. -/
  hint : ∀ calls further, (fs.walk.after calls).remaining ≤ further →
    ((fs.walk.after calls).yields further).length = (fs.walk.after calls).remaining
  /-- A name leads to the value of the first field with it that a whole walk yields. -/
  value : ∀ name calls, fs.length ≤ calls →
    fs.get? name = ((fs.walk.yields calls).find? (·.name == name)).map Field.value
  /-- In what a capturing sink keeps, the name leads to the text of that value. -/
  kept : ∀ (r : Record), r.fields = fs → ∀ c : Capture, ∃ kept : CapturedRecord,
    (Capture.logger.log c r).state.records = c.records ++ [kept] ∧
      ∀ name, kept.field? name = (fs.get? name).map FieldValue.text

/-- **A lawful field set is read alike in all ways.** -/
theorem FieldSet.Lawful.readsAlike {fs : FieldSet} (lawful : fs.Lawful) : fs.ReadsAlike := by
  have full := lawful.length_toList
  have behind (calls : Nat) : fs.walk.after calls = ⟨fs, min calls fs.length⟩ := by
    rw [walk, FieldWalk.after_lawful lawful calls (Nat.zero_le _), Nat.zero_add]
  have answers (calls : Nat) : (fs.walk.after calls).next.1 = fs.field calls := by
    rw [behind, FieldWalk.next_lawful lawful (Nat.min_le_right _ _)]
    by_cases inside : calls < fs.length
    · rw [Nat.min_eq_left (by omega)]
    · have nothing {i : Nat} (outside : ¬i < fs.length) : fs.field i = none := by
        rwa [← lawful, Option.not_isSome_iff_eq_none] at outside
      rw [nothing inside, nothing (by omega)]
  refine ⟨answers, fun calls => ?ends, fun calls further enough => ?hint,
    fun name calls enough => ?value, fun r same c => ?kept⟩
  case ends =>
    rw [answers]
    exact lawful calls
  case hint =>
    have left : (fs.walk.after calls).remaining = fs.length - min calls fs.length := by
      rw [behind, FieldWalk.remaining]
    rw [left] at enough ⊢
    rw [behind, FieldWalk.yields_lawful lawful further (Nat.min_le_right _ _), List.length_take,
      List.length_drop, full]
    omega
  case value =>
    rw [get?_lawful lawful, walk, FieldWalk.yields_lawful lawful calls (Nat.zero_le _),
      List.drop_zero, List.take_of_length_le (by omega)]
  case kept =>
    subst same
    refine ⟨c.captured r, rfl, fun name => ?_⟩
    rw [Capture.field?_captured, get?_lawful lawful, Option.map_map]
    rfl

end LogInterface
