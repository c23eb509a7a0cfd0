/-
# Proofs.Text.Lines -- a place in a text and its line

A place in a text is the text before it, the character that stands there and the text behind it.
Its line is cut out by two rules that do not know of each other: a `Location` counts line feeds
and the characters since the last one, and `splitLines` takes a carriage return away as well.
They agree (`lineAt?_place`): the numbered line is what stands on the line before the character
(`lineStart`), the character, and what stands behind it (`lineEnd`), and the column is its place
in that line.
-/
import Mathlib.Data.List.DropRight
import LogInterface.Text.Location

namespace LogInterface.Text

set_option autoImplicit false

/-! ## A place on its line -/

def lineStart (before : List Char) : List Char := before.rtakeWhile (· ≠ '\n')

/-- What stands on the line of a place behind it.  A carriage return in front of the line feed is
part of the end of the line. -/
def lineEnd : List Char → List Char
  | [] => []
  | '\n' :: _ => []
  | '\r' :: '\n' :: _ => []
  | c :: cs => c :: lineEnd cs

theorem not_mem_lineStart (before : List Char) : '\n' ∉ lineStart before := fun member => by
  simpa using List.mem_rtakeWhile_imp member

theorem not_mem_lineEnd (after : List Char) : '\n' ∉ lineEnd after := by
  fun_induction lineEnd after with
  | case1 => exact List.not_mem_nil
  | case2 => exact List.not_mem_nil
  | case3 => exact List.not_mem_nil
  | case4 c cs other notPair ih =>
      rw [List.mem_cons, not_or]
      exact ⟨fun same => other same.symm, ih⟩

/-- A place is on the first line, or behind the line feed that its line starts after. -/
theorem exists_earlier (before : List Char) :
    lineStart before = before ∨ ∃ earlier, before = earlier ++ '\n' :: lineStart before := by
  have whole : before.rdropWhile (· ≠ '\n') ++ lineStart before = before :=
    List.rdropWhile_append_rtakeWhile
  by_cases first : before.rdropWhile (· ≠ '\n') = []
  · rw [first, List.nil_append] at whole
    exact .inl whole
  · have feed : (before.rdropWhile (· ≠ '\n')).getLast first = '\n' := by
      simpa using List.rdropWhile_last_not (· ≠ '\n') before first
    have parted := List.dropLast_append_getLast first
    rw [feed] at parted
    refine .inr ⟨(before.rdropWhile (· ≠ '\n')).dropLast, ?_⟩
    rw [List.append_cons, parted, whole]

/-! ## Numbered lines -/

/-- A character that ends no line belongs to the line that starts behind it. -/
theorem splitLines_cons {c : Char} {cs : List Char} (feed : c ≠ '\n')
    (single : c = '\r' → cs.head? ≠ some '\n') :
    splitLines (c :: cs) = (c :: (splitLines cs).headD []) :: (splitLines cs).tail := by
  rw [splitLines]
  · cases splitLines cs <;> rfl
  · exact feed
  · rintro rest rfl rfl
    exact single rfl rfl

/-- Only a line feed starts another line. -/
theorem splitLines_tail {c : Char} (feed : c ≠ '\n') (cs : List Char) :
    (splitLines (c :: cs)).tail = (splitLines cs).tail := by
  by_cases pair : c = '\r' ∧ cs.head? = some '\n'
  · obtain ⟨rfl, next⟩ := pair
    obtain ⟨rest, rfl⟩ := List.head?_eq_some_iff.mp next
    rfl
  · rw [splitLines_cons feed fun carriage next => pair ⟨carriage, next⟩]
    rfl

theorem splitLines_headD (cs : List Char) : (splitLines cs).headD [] = lineEnd cs := by
  fun_induction lineEnd cs with
  | case1 => rfl
  | case2 => rfl
  | case3 => rfl
  | case4 c cs feed notPair ih =>
      rw [splitLines_cons feed, ih]
      · rfl
      · intro carriage next
        obtain ⟨rest, rfl⟩ := List.head?_eq_some_iff.mp next
        exact notPair rest carriage rfl

/-- The lines behind a line feed have the next numbers. -/
theorem splitLines_drop (earlier rest : List Char) :
    (splitLines (earlier ++ '\n' :: rest)).drop (earlier.count '\n' + 1) = splitLines rest := by
  induction earlier with
  | nil => rfl
  | cons c earlier ih =>
      by_cases feed : c = '\n'
      · subst feed
        rw [List.count_cons_self]
        exact ih
      · rw [List.count_cons_of_ne feed, List.cons_append, ← List.drop_tail, splitLines_tail feed,
          List.drop_tail]
        exact ih

/-- No line holds a line feed. -/
theorem not_mem_of_mem_splitLines {cs line : List Char} (member : line ∈ splitLines cs) :
    '\n' ∉ line := by
  fun_induction splitLines cs generalizing line with
  | case1 => cases member
  | case2 cs ih =>
      rcases List.mem_cons.mp member with rfl | below
      · exact List.not_mem_nil
      · exact ih below
  | case3 cs ih =>
      rcases List.mem_cons.mp member with rfl | below
      · exact List.not_mem_nil
      · exact ih below
  | case4 c cs feed _ _ _ =>
      rw [List.mem_singleton.mp member, List.mem_singleton]
      exact Ne.symm feed
  | case5 c cs feed _ first lines behind ih =>
      rw [behind] at ih
      rcases List.mem_cons.mp member with rfl | below
      · rw [List.mem_cons, not_or]
        exact ⟨Ne.symm feed, ih List.mem_cons_self⟩
      · exact ih (List.mem_cons_of_mem _ below)

theorem head?_splitLines {same : List Char} (free : '\n' ∉ same) {c : Char} (feed : c ≠ '\n')
    (carriage : c ≠ '\r') (after : List Char) :
    (splitLines (same ++ c :: after)).head? = some (same ++ c :: lineEnd after) := by
  induction same with
  | nil =>
      rw [List.nil_append, splitLines_cons feed fun isCarriage => absurd isCarriage carriage,
        splitLines_headD]
      rfl
  | cons d same ih =>
      obtain ⟨first, free⟩ := List.ne_and_not_mem_of_not_mem_cons free
      have single : (same ++ c :: after).head? ≠ some '\n' := by
        cases same with
        | nil => exact fun next => feed (Option.some.inj next)
        | cons e same => exact fun next => free (Option.some.inj next ▸ List.mem_cons_self)
      rw [List.cons_append, splitLines_cons (Ne.symm first) fun _ => single, List.head?_cons,
        List.headD_eq_head?_getD, ih free]
      rfl

/-- **The line of a place is what stands on it before and behind the place.** -/
theorem splitLines_place (before : List Char) {c : Char} (feed : c ≠ '\n') (carriage : c ≠ '\r')
    (after : List Char) :
    (splitLines (before ++ c :: after))[before.count '\n']?
      = some (lineStart before ++ c :: lineEnd after) := by
  have free := not_mem_lineStart before
  rcases exists_earlier before with first | ⟨earlier, later⟩
  · rw [first] at free ⊢
    rw [List.count_eq_zero_of_not_mem free, ← List.head?_eq_getElem?]
    exact head?_splitLines free feed carriage after
  · have number : before.count '\n' = earlier.count '\n' + 1 := by
      rw [later, List.count_append, List.count_cons_self, List.count_eq_zero_of_not_mem free]
    have text : before ++ c :: after = earlier ++ '\n' :: (lineStart before ++ c :: after) := by
      conv_lhs => rw [later]
      rw [List.append_assoc, List.cons_append]
    rw [number, text, ← List.head?_drop, splitLines_drop]
    exact head?_splitLines free feed carriage after

/-! ## Locations -/

theorem column_after (before : List Char) :
    (Location.after before).column = (lineStart before).length + 1 := by
  rw [lineStart, List.rtakeWhile, List.length_reverse]
  rfl

/-- The offset of a place leads back to it. -/
theorem ofOffset_place {source : String} {before after : List Char}
    (place : source.toList = before ++ after) :
    Location.ofOffset source (byteLength before) = Location.after before := by
  have inside : min (byteLength before) (byteLength (before ++ after)) = byteLength before := by
    rw [byteLength_append]
    omega
  rw [Location.ofOffset, place, inside, takeBytes_append]
  rfl

theorem lineAt?_place {source : String} {before after : List Char} {c : Char}
    (place : source.toList = before ++ c :: after) (feed : c ≠ '\n') (carriage : c ≠ '\r') :
    lineAt? source (Location.after before).line
      = some (lineStart before ++ c :: lineEnd after) := by
  rw [lineAt?, place]
  exact splitLines_place before feed carriage after

end LogInterface.Text
