/-
# Proofs.Text.Inside -- offsets inside a character

An offset can be any number, and `Location.ofOffset` has a location for each.  There are three kinds
of them (`exists_cut`): whole characters fill the bytes before the offset, or a character has bytes
on both sides of it (`InsideCharacter`), or the text is too short.  The location of the first kind
is counted.  The other two kinds have no place in the text, and are given the end of it
(`ofOffset_of_atEnd`).

So locations go up with their offsets and stay at the end, except that an offset inside a character
is there early.  Of two offsets the first one gets the later location exactly if it is inside a
character, and at the second one a character starts (`locations_ordered_iff`).
-/
import LogInterface.Proofs.Text.Location

namespace LogInterface.Text

set_option autoImplicit false

/-! ## Kinds of offsets -/

/-- The offset has bytes of one character on both sides. -/
def InsideCharacter (source : String) (offset : Nat) : Prop :=
  ∃ before c after, source.toList = before ++ c :: after ∧
    byteLength before < offset ∧ offset < byteLength before + c.utf8Size

/-- No character of the text starts at the offset. -/
def AtEnd (source : String) (offset : Nat) : Prop :=
  InsideCharacter source offset ∨ source.utf8ByteSize ≤ offset

/-- Whole characters fill the bytes before an offset, or it is inside the next one, or the text is
too short for it. -/
theorem exists_cut (cs : List Char) (n : Nat) :
    (∃ before after, cs = before ++ after ∧ byteLength before = n) ∨
      (∃ before c after, cs = before ++ c :: after ∧
        byteLength before < n ∧ n < byteLength before + c.utf8Size) ∨
      byteLength cs < n := by
  induction cs generalizing n with
  | nil =>
      rcases Nat.eq_zero_or_pos n with rfl | positive
      · exact .inl ⟨[], [], rfl, rfl⟩
      · exact .inr (.inr positive)
  | cons c cs ih =>
      rcases Nat.eq_zero_or_pos n with rfl | positive
      · exact .inl ⟨[], c :: cs, rfl, rfl⟩
      · by_cases short : n < c.utf8Size
        · exact .inr (.inl ⟨[], c, cs, rfl, positive, by rwa [byteLength, Nat.zero_add]⟩)
        · -- The first character fits, and the rest of the offset is one in the rest of the text.
          obtain ⟨rest, rfl⟩ := Nat.exists_eq_add_of_le (Nat.le_of_not_lt short)
          rcases ih rest with ⟨before, after, rfl, filled⟩ | ⟨before, d, after, rfl, low, high⟩ | past
          · exact .inl ⟨c :: before, after, rfl, by rw [byteLength, filled]⟩
          · refine .inr (.inl ⟨c :: before, d, after, rfl, ?_, ?_⟩) <;> rw [byteLength] <;> omega
          · refine .inr (.inr ?_)
            rw [byteLength]
            omega

/-- A character starts at an offset, or the offset is at the end. -/
theorem starts_or_atEnd (source : String) (offset : Nat) :
    (∃ before c after, source.toList = before ++ c :: after ∧ byteLength before = offset) ∨
      AtEnd source offset := by
  have size := byteLength_toList source
  rcases exists_cut source.toList offset with ⟨before, after, place, filled⟩ | inside | past
  · cases after with
    | cons c after => exact .inl ⟨before, c, after, place, filled⟩
    | nil =>
        rw [List.append_nil] at place
        exact .inr (.inr (by rw [← size, place, filled]))
  · exact .inr (.inl inside)
  · exact .inr (.inr (by omega))

/-! ## Their locations -/

/-- What is taken are whole characters. -/
theorem takeBytes_eq_some {cs taken : List Char} {n : Nat} (takes : takeBytes cs n = some taken) :
    ∃ after, cs = taken ++ after ∧ byteLength taken = n := by
  fun_induction takeBytes cs n generalizing taken with
  | case1 cs => cases takes; exact ⟨cs, rfl, rfl⟩
  | case2 => cases takes
  | case3 c cs n fits ih =>
      obtain ⟨taken, taking, rfl⟩ := Option.map_eq_some_iff.mp takes
      obtain ⟨after, rfl, filled⟩ := ih taking
      refine ⟨after, rfl, ?_⟩
      rw [byteLength, filled]
      omega
  | case4 => cases takes

/-- Nothing can be taken up to an offset inside a character. -/
theorem takeBytes_inside {before after : List Char} {c : Char} {n : Nat}
    (low : byteLength before < n) (high : n < byteLength before + c.utf8Size) :
    takeBytes (before ++ c :: after) n = none := by
  rw [Option.eq_none_iff_forall_not_mem]
  intro taken takes
  obtain ⟨rest, parts, rfl⟩ := takeBytes_eq_some takes
  obtain ⟨between, some, rfl⟩ := exists_between parts low
  rw [List.append_assoc, List.append_cancel_left_eq] at parts
  obtain ⟨d, between, rfl⟩ := List.exists_cons_of_ne_nil some
  -- The first character that is taken behind the offset is the one that the offset is inside of.
  obtain ⟨rfl, -⟩ := List.cons.inj parts
  rw [byteLength_append, byteLength] at high
  omega

theorem ofOffset_of_atEnd {source : String} {offset : Nat} (ends : AtEnd source offset) :
    Location.ofOffset source offset = Location.after source.toList := by
  rcases ends with ⟨before, c, after, place, low, high⟩ | past
  · have within : min offset (byteLength source.toList) = offset := by
      rw [place, byteLength_append, byteLength]
      omega
    rw [Location.ofOffset, within, place, takeBytes_inside low high, Option.getD_none]
  · have clamped : min offset (byteLength source.toList) = byteLength source.toList := by
      rw [byteLength_toList]
      exact Nat.min_eq_right past
    have whole := takeBytes_append source.toList []
    rw [List.append_nil] at whole
    rw [Location.ofOffset, clamped, whole, Option.getD_some]

/-- Where a character starts is in front of the end. -/
theorem key_lt_of_starts {source : String} {before after : List Char} {c : Char}
    (place : source.toList = before ++ c :: after) :
    (Location.ofOffset source (byteLength before)).key < (Location.after source.toList).key := by
  rw [ofOffset_place place, place]
  exact key_after_lt before (List.cons_ne_nil c after)

theorem key_le_end (source : String) (offset : Nat) :
    (Location.ofOffset source offset).key ≤ (Location.after source.toList).key := by
  rcases starts_or_atEnd source offset with ⟨before, c, after, place, rfl⟩ | ends
  · exact (key_lt_of_starts place).le
  · rw [ofOffset_of_atEnd ends]

theorem not_atEnd_of_starts {source : String} {before after : List Char} {c : Char}
    (place : source.toList = before ++ c :: after) : ¬AtEnd source (byteLength before) := by
  intro ends
  have earlier := key_lt_of_starts place
  rw [ofOffset_of_atEnd ends] at earlier
  exact lt_irrefl _ earlier

theorem key_le_of_starts {source : String} {before after before' after' : List Char}
    (place : source.toList = before ++ after) (place' : source.toList = before' ++ after')
    (ordered : byteLength before ≤ byteLength before') :
    (Location.ofOffset source (byteLength before)).key
      ≤ (Location.ofOffset source (byteLength before')).key := by
  rcases ordered.eq_or_lt with same | less
  · rw [same]
  · obtain ⟨between, some, rfl⟩ := exists_between (place.symm.trans place') less
    rw [ofOffset_place place, ofOffset_place place']
    exact (key_after_lt before some).le

/-! ## Their order -/

/-- **When locations keep the order of their offsets.**  They do unless the first offset is inside a
character and the second one is not at the end; the location of an offset inside a character is that
of the end of the text. -/
theorem locations_ordered_iff {source : String} {first second : Nat} (ordered : first ≤ second) :
    ((Location.ofOffset source first).key ≤ (Location.ofOffset source second).key ↔
        ¬InsideCharacter source first ∨ InsideCharacter source second
          ∨ source.utf8ByteSize ≤ second) ∧
      (InsideCharacter source first →
        Location.ofOffset source first = Location.ofOffset source source.utf8ByteSize) := by
  refine ⟨?order, fun inside => ?location⟩
  case location => rw [ofOffset_of_atEnd (.inl inside), ofOffset_end]
  rcases starts_or_atEnd source second with ⟨before', c', after', place', rfl⟩ | ends'
  · -- A character starts at the second offset, so its location is in front of the end.
    have notEnd := not_atEnd_of_starts place'
    rcases starts_or_atEnd source first with ⟨before, c, after, place, rfl⟩ | inside | past
    · have outside : ¬InsideCharacter source (byteLength before) :=
        fun inside => not_atEnd_of_starts place (.inl inside)
      exact iff_of_true (key_le_of_starts place place' ordered) (.inl outside)
    · refine iff_of_false ?_ (not_or.mpr ⟨not_not_intro inside, notEnd⟩)
      rw [ofOffset_of_atEnd (.inl inside)]
      exact not_le_of_gt (key_lt_of_starts place')
    · exact absurd (.inr (past.trans ordered)) notEnd
  · refine iff_of_true ?_ (.inr ends')
    rw [ofOffset_of_atEnd ends']
    exact key_le_end source first

/-- The first ideograph has three bytes. -/
theorem inside_ideograph : InsideCharacter "日本\n語" 1 ∧ InsideCharacter "日本\n語" 2 :=
  ⟨⟨[], '日', ['本', '\n', '語'], by decide +kernel, by decide, by decide⟩,
    ⟨[], '日', ['本', '\n', '語'], by decide +kernel, by decide, by decide⟩⟩

theorem locations_ordered_iff_ideograph :
    1 ≤ 2 ∧ InsideCharacter "日本\n語" 1 ∧
      (Location.ofOffset "日本\n語" 1).key ≤ (Location.ofOffset "日本\n語" 2).key ∧
      Location.ofOffset "日本\n語" 1 = Location.ofOffset "日本\n語" "日本\n語".utf8ByteSize := by
  obtain ⟨order, location⟩ := @locations_ordered_iff "日本\n語" 1 2 (by decide)
  obtain ⟨inside, inside'⟩ := inside_ideograph
  exact ⟨by decide, inside, order.mpr (.inr (.inl inside')), location inside⟩

/-- Inside the first character the location is the end of the last line, and the one behind that
character is earlier. -/
theorem inside_overtakes :
    1 ≤ 3 ∧ InsideCharacter "日本\n語" 1 ∧
      Location.ofOffset "日本\n語" 1 = ⟨2, 2⟩ ∧ Location.ofOffset "日本\n語" 3 = ⟨1, 2⟩ ∧
      ¬(Location.ofOffset "日本\n語" 1).key ≤ (Location.ofOffset "日本\n語" 3).key := by
  have first : Location.ofOffset "日本\n語" 1 = ⟨2, 2⟩ := by decide +kernel
  have second : Location.ofOffset "日本\n語" 3 = ⟨1, 2⟩ := by decide +kernel
  refine ⟨by decide, inside_ideograph.1, first, second, not_le_of_gt ?_⟩
  rw [first, second, Location.key_lt_iff]
  exact .inl (by decide)

end LogInterface.Text
