/-
# Proofs.Text.Cut -- texts that are cut at a character

What was written in front of a mark is found again by looking for the first mark, if there is none
in it.
-/
import Mathlib.Data.List.TakeWhile

namespace LogInterface.Text

set_option autoImplicit false

/-- The characters in front of the first `stop`, and those behind it. -/
def cutAt (stop : Char) (cs : List Char) : List Char × List Char :=
  (cs.takeWhile (· ≠ stop), (cs.dropWhile (· ≠ stop)).tail)

section

variable {stop : Char} {before : List Char}

theorem passed_of_notMem (free : stop ∉ before) : ∀ c ∈ before, decide (c ≠ stop) = true :=
  fun _ member => decide_eq_true fun same => free (same ▸ member)

/-- A number that is written down has no mark among its digits. -/
theorem notMem_toDigits {mark : Char} (other : mark.isDigit = false) (n : Nat) :
    mark ∉ Nat.toDigits 10 n := by
  intro member
  have digit := Nat.isDigit_of_mem_toDigits (by decide) (by decide) member
  rw [other] at digit
  cases digit

/-- Leaving out what stands in front of the first `stop`. -/
theorem dropWhile_append_stop (free : stop ∉ before) (rest : List Char) :
    (before ++ stop :: rest).dropWhile (· ≠ stop) = stop :: rest := by
  rw [List.dropWhile_append_of_pos (passed_of_notMem free)]
  exact List.dropWhile_cons_of_neg (by simp)

/-- A cut is made at a character that is not in front of it. -/
theorem cutAt_append (free : stop ∉ before) (rest : List Char) :
    cutAt stop (before ++ stop :: rest) = (before, rest) := by
  have front : (before ++ stop :: rest).takeWhile (· ≠ stop) = before := by
    rw [List.takeWhile_append_of_pos (passed_of_notMem free),
      List.takeWhile_cons_of_neg (by simp), List.append_nil]
  rw [cutAt, front, dropWhile_append_stop free, List.tail_cons]

/-- Without the character everything stands in front of it. -/
theorem cutAt_of_notMem (free : stop ∉ before) : cutAt stop before = (before, []) := by
  have passed := passed_of_notMem free
  rw [cutAt, List.takeWhile_eq_self_iff.mpr passed, List.dropWhile_eq_nil_iff.mpr passed,
    List.tail_nil]

end

end LogInterface.Text
