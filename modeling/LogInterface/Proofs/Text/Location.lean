/-
# Proofs.Text.Location -- offsets and locations correspond

`Location.ofOffset` counts: the line feeds before an offset make the line, the characters behind
the last of them the column.  `Location.offset?` walks: over the line feeds of the lines above,
then over the characters to the left, none of which may be a line feed.

Counting and walking undo each other (`offset?_eq_some_iff`).  An offset is compared with another
one by what stands between them: a line feed there makes the line greater, and without one every
character makes the column greater (`key_after_lt`).  So the offsets at which a character starts
or the text ends and the locations of a text correspond one to one, in their order
(`offsets_correspond`).
-/
import LogInterface.Proofs.Text.Lines
import Mathlib.Data.Prod.Lex
import Mathlib.Order.Monotone.Defs

namespace LogInterface.Text

set_option autoImplicit false

/-! ## Boundaries of characters -/

theorem byteLength_toList (s : String) : byteLength s.toList = s.utf8ByteSize := by
  rw [← utf8ByteSize_ofList, String.ofList_toList]

/-- An offset is on a boundary if whole characters fill the bytes before it. -/
theorem isValid_iff {source : String} {offset : Nat} :
    (⟨offset⟩ : String.Pos.Raw).IsValid source ↔
      ∃ before after, source.toList = before ++ after ∧ byteLength before = offset := by
  rw [String.Pos.Raw.isValid_iff_exists_append]
  constructor
  · rintro ⟨s, t, rfl, position⟩
    refine ⟨s.toList, t.toList, String.toList_append, ?_⟩
    rw [byteLength_toList]
    exact (congrArg String.Pos.Raw.byteIdx position).symm
  · rintro ⟨before, after, place, rfl⟩
    refine ⟨String.ofList before, String.ofList after, ?_, ?_⟩
    · rw [← String.ofList_append, ← place, String.ofList_toList]
    · rw [← utf8ByteSize_ofList]
      rfl

/-- Of two boundaries the later one has more characters before it. -/
theorem exists_between {before after before' after' : List Char}
    (same : before ++ after = before' ++ after') (less : byteLength before < byteLength before') :
    ∃ between, between ≠ [] ∧ before' = before ++ between := by
  rcases List.append_eq_append_iff.mp same with ⟨between, later, -⟩ | ⟨between, earlier, -⟩
  · refine ⟨between, ?_, later⟩
    rintro rfl
    rw [later, List.append_nil] at less
    exact Nat.lt_irrefl _ less
  · rw [earlier, byteLength_append] at less
    omega

/-! ## The order of locations -/

/-- Locations in the order of reading: by line, then by column. -/
def Location.key (l : Location) : ℕ ×ₗ ℕ := toLex (l.line, l.column)

theorem Location.key_lt_iff {l l' : Location} :
    l.key < l'.key ↔ l.line < l'.line ∨ l.line = l'.line ∧ l.column < l'.column :=
  Prod.Lex.toLex_lt_toLex

theorem lineStart_append {t : List Char} (free : '\n' ∉ t) (s : List Char) :
    lineStart (s ++ t) = lineStart s ++ t := by
  have all : ∀ c ∈ t.reverse, (c ≠ '\n') = true := by
    intro c member
    have other : c ≠ '\n' := fun same => free (same ▸ List.mem_reverse.mp member)
    simpa using other
  rw [lineStart, List.rtakeWhile, List.reverse_append,
    List.takeWhile_append_of_pos (by simpa using all), List.reverse_append, List.reverse_reverse]
  rfl

/-- What stands between two places moves the location on. -/
theorem key_after_lt (before : List Char) {between : List Char} (some : between ≠ []) :
    (Location.after before).key < (Location.after (before ++ between)).key := by
  rw [Location.key_lt_iff]
  by_cases feed : '\n' ∈ between
  · have more : 0 < between.count '\n' := List.count_pos_iff.mpr feed
    refine .inl ?_
    simp only [Location.after, List.count_append]
    omega
  · have none : between.count '\n' = 0 := List.count_eq_zero_of_not_mem feed
    have longer : 0 < between.length := List.length_pos_iff.mpr some
    refine .inr ⟨?_, ?_⟩
    · simp only [Location.after, List.count_append, none, Nat.add_zero]
    · rw [column_after, column_after, lineStart_append feed, List.length_append]
      omega

/-! ## The way back -/

/-- Cuts a text behind its `n`-th line feed. -/
def cutBehindFeeds : (n : Nat) → List Char → Option (List Char × List Char)
  | 0, cs => some ([], cs)
  | _ + 1, [] => none
  | n + 1, c :: cs =>
      (cutBehindFeeds (if c = '\n' then n else n + 1) cs).map fun (above, rest) =>
        (c :: above, rest)

/-- The offset of a location: behind the line feeds of the lines above and the characters to the
left, which have to be there and on one line. -/
def Location.offset? (source : String) (l : Location) : Option Nat := do
  let (above, rest) ← cutBehindFeeds (l.line - 1) source.toList
  let left := rest.take (l.column - 1)
  if left.length = l.column - 1 ∧ '\n' ∉ left then some (byteLength (above ++ left)) else none

/-- Whole lines: nothing, or a text that ends with a line feed. -/
def EndsLine (cs : List Char) : Prop := cs = [] ∨ ∃ before, cs = before ++ ['\n']

theorem EndsLine.cons {cs : List Char} (ends : EndsLine cs) {c : Char}
    (feed : cs = [] → c = '\n') : EndsLine (c :: cs) := by
  rcases ends with rfl | ⟨before, rfl⟩
  · exact .inr ⟨[], by rw [feed rfl]; rfl⟩
  · exact .inr ⟨c :: before, rfl⟩

theorem EndsLine.tail {c : Char} {cs : List Char} (ends : EndsLine (c :: cs)) : EndsLine cs := by
  rcases ends with impossible | ⟨before, whole⟩
  · cases impossible
  · cases before with
    | nil => exact .inl (List.cons.inj whole).2
    | cons d before => exact .inr ⟨before, (List.cons.inj whole).2⟩

theorem EndsLine.lineStart {cs : List Char} (ends : EndsLine cs) : lineStart cs = [] := by
  rcases ends with rfl | ⟨before, rfl⟩
  · rfl
  · rw [Text.lineStart, List.rtakeWhile_concat_neg _ _ _ (by simp)]

theorem EndsLine.count_pos {cs : List Char} (ends : EndsLine cs) (some : cs ≠ []) :
    0 < cs.count '\n' := by
  rcases ends with empty | ⟨before, rfl⟩
  · exact absurd empty some
  · exact List.count_pos_iff.mpr (List.mem_append_right _ List.mem_cons_self)

theorem endsLine_of_place (before : List Char) :
    ∃ above, EndsLine above ∧ before = above ++ lineStart before := by
  rcases exists_earlier before with first | ⟨earlier, later⟩
  · exact ⟨[], .inl rfl, by rw [first, List.nil_append]⟩
  · refine ⟨earlier ++ ['\n'], .inr ⟨earlier, rfl⟩, ?_⟩
    rw [List.append_assoc]
    exact later

theorem cutBehindFeeds_spec {n : Nat} {cs above rest : List Char}
    (cut : cutBehindFeeds n cs = some (above, rest)) :
    cs = above ++ rest ∧ above.count '\n' = n ∧ EndsLine above := by
  induction cs generalizing n above with
  | nil =>
      cases n with
      | zero => cases cut; exact ⟨rfl, rfl, .inl rfl⟩
      | succ n => cases cut
  | cons c cs ih =>
      cases n with
      | zero => cases cut; exact ⟨rfl, rfl, .inl rfl⟩
      | succ n =>
          obtain ⟨⟨above, rest⟩, behind, same⟩ := Option.map_eq_some_iff.mp cut
          cases same
          obtain ⟨rfl, count, ends⟩ := ih behind
          by_cases feed : c = '\n'
          · rw [if_pos feed] at count
            refine ⟨rfl, ?_, ends.cons fun _ => feed⟩
            rw [feed, List.count_cons_self, count]
          · rw [if_neg feed] at count
            refine ⟨rfl, ?_, ends.cons fun empty => ?_⟩
            · rw [List.count_cons_of_ne feed, count]
            · rw [empty] at count
              cases count

theorem cutBehindFeeds_append {above : List Char} (ends : EndsLine above) (rest : List Char) :
    cutBehindFeeds (above.count '\n') (above ++ rest) = some (above, rest) := by
  induction above with
  | nil => rw [List.count_nil, cutBehindFeeds, List.nil_append]
  | cons c above ih =>
      have behind := ih ends.tail
      by_cases feed : c = '\n'
      · rw [feed, List.count_cons_self, List.cons_append, cutBehindFeeds, if_pos rfl, behind]
        rfl
      · -- The line goes on, so the line feed that ends it is still to come.
        have more : 0 < (c :: above).count '\n' := ends.count_pos (List.cons_ne_nil _ _)
        rw [List.count_cons_of_ne feed] at more ⊢
        obtain ⟨n, count⟩ : ∃ n, above.count '\n' = n + 1 := ⟨above.count '\n' - 1, by omega⟩
        rw [List.cons_append, count, cutBehindFeeds, if_neg feed, ← count, behind]
        rfl

/-- **Walking undoes counting**: a location is walked to exactly the place that it is the location
of. -/
theorem offset?_eq_some_iff {source : String} {l : Location} {offset : Nat} :
    l.offset? source = some offset ↔
      ∃ before after, source.toList = before ++ after ∧ byteLength before = offset ∧
        before.count '\n' = l.line - 1 ∧ (lineStart before).length = l.column - 1 := by
  constructor
  · intro walked
    obtain ⟨⟨above, rest⟩, cut, walked⟩ := Option.bind_eq_some_iff.mp walked
    obtain ⟨whole, count, ends⟩ := cutBehindFeeds_spec cut
    simp only [Option.ite_none_right_eq_some, Option.some.injEq] at walked
    obtain ⟨⟨long, free⟩, offset⟩ := walked
    refine ⟨above ++ rest.take (l.column - 1), rest.drop (l.column - 1), ?_, offset, ?_, ?_⟩
    · rw [List.append_assoc, List.take_append_drop, whole]
    · rw [List.count_append, count, List.count_eq_zero_of_not_mem free, Nat.add_zero]
    · rw [lineStart_append free, ends.lineStart, List.nil_append, long]
  · rintro ⟨before, after, place, rfl, line, column⟩
    obtain ⟨above, ends, parts⟩ := endsLine_of_place before
    have free := not_mem_lineStart before
    have count : above.count '\n' = l.line - 1 := by
      rw [← line]
      conv_rhs => rw [parts]
      rw [List.count_append, List.count_eq_zero_of_not_mem free, Nat.add_zero]
    have cut : cutBehindFeeds (l.line - 1) source.toList = some (above, lineStart before ++ after) := by
      rw [← count, place]
      conv_lhs => rw [parts]
      rw [List.append_assoc]
      exact cutBehindFeeds_append ends _
    have left : (lineStart before ++ after).take (l.column - 1) = lineStart before :=
      List.take_left' column
    rw [Location.offset?, cut]
    simp only [Option.bind_eq_bind, Option.bind_some, left]
    rw [if_pos ⟨column, free⟩, ← parts]

/-! ## The correspondence -/

/-- The location of a boundary counts what stands before it. -/
theorem ofOffset_eq_iff {source : String} {offset : Nat} {l : Location} :
    (⟨offset⟩ : String.Pos.Raw).IsValid source ∧ Location.ofOffset source offset = l ↔
      ∃ before after, source.toList = before ++ after ∧ byteLength before = offset ∧
        Location.after before = l := by
  rw [isValid_iff]
  constructor
  · rintro ⟨⟨before, after, place, rfl⟩, location⟩
    rw [ofOffset_place place] at location
    exact ⟨before, after, place, rfl, location⟩
  · rintro ⟨before, after, place, rfl, location⟩
    exact ⟨⟨before, after, place, rfl⟩, (ofOffset_place place).trans location⟩

/-- Lines and columns are counted from one. -/
theorem after_eq_iff {before : List Char} {l : Location} (line : 0 < l.line)
    (column : 0 < l.column) :
    Location.after before = l ↔
      before.count '\n' = l.line - 1 ∧ (lineStart before).length = l.column - 1 := by
  have columns := column_after before
  constructor
  · rintro rfl
    refine ⟨rfl, ?_⟩
    rw [columns, Nat.add_sub_cancel]
  · rintro ⟨feeds, left⟩
    obtain ⟨lines, rest⟩ := l
    simp only at *
    rw [show Location.after before = ⟨before.count '\n' + 1, (Location.after before).column⟩ from rfl,
      columns, Location.mk.injEq]
    omega

theorem ofOffset_end (source : String) :
    Location.ofOffset source source.utf8ByteSize = Location.after source.toList := by
  rw [← byteLength_toList]
  exact ofOffset_place (List.append_nil _).symm

/-- **Offsets and locations correspond one to one.**  On the boundaries of characters locations
grow with their offsets, and an offset is found again by walking to its location; only the
location of a boundary can be walked to.  Past the end of the text there is no other location than
that of the end. -/
theorem offsets_correspond (source : String) :
    StrictMonoOn (fun offset => (Location.ofOffset source offset).key)
        {offset | (⟨offset⟩ : String.Pos.Raw).IsValid source} ∧
      (∀ offset, (⟨offset⟩ : String.Pos.Raw).IsValid source →
        (Location.ofOffset source offset).offset? source = some offset) ∧
      (∀ l : Location, 0 < l.line → 0 < l.column → ∀ offset, l.offset? source = some offset →
        (⟨offset⟩ : String.Pos.Raw).IsValid source ∧ Location.ofOffset source offset = l) ∧
      ∀ offset, source.utf8ByteSize ≤ offset →
        Location.ofOffset source offset = Location.ofOffset source source.utf8ByteSize := by
  refine ⟨?order, ?found, ?only, ?beyond⟩
  case order =>
    intro first isFirst second isSecond less
    obtain ⟨before, after, place, rfl⟩ := isValid_iff.mp isFirst
    obtain ⟨before', after', place', rfl⟩ := isValid_iff.mp isSecond
    obtain ⟨between, some, rfl⟩ := exists_between (place.symm.trans place') less
    simp only
    rw [ofOffset_place place, ofOffset_place place']
    exact key_after_lt before some
  case found =>
    intro offset valid
    obtain ⟨before, after, place, rfl⟩ := isValid_iff.mp valid
    rw [ofOffset_place place, offset?_eq_some_iff]
    refine ⟨before, after, place, rfl, rfl, ?_⟩
    rw [column_after, Nat.add_sub_cancel]
  case only =>
    intro l line column offset walked
    obtain ⟨before, after, place, length, located⟩ := offset?_eq_some_iff.mp walked
    exact ofOffset_eq_iff.mpr ⟨before, after, place, length, (after_eq_iff line column).mpr located⟩
  case beyond =>
    intro offset past
    rw [ofOffset_end, Location.ofOffset, byteLength_toList, Nat.min_eq_right past,
      ← byteLength_toList]
    have whole := takeBytes_append source.toList []
    rw [List.append_nil] at whole
    rw [whole, Option.getD_some]

example : (Location.ofOffset "ä\n日x" 6).offset? "ä\n日x" = some 6 := by decide +kernel

end LogInterface.Text
