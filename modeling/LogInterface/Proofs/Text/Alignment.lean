/-
# Proofs.Text.Alignment -- every excerpt stands straight

`ShownLine.ofLine` counts with numbers that stop at zero and cuts with bounds that may lie
anywhere, so it answers for every line and every column.  `ShownLine.ofLine?` is the same
computation with every bound checked, and no check ever fails (`ofLine?_eq`): the slice around the
caret lies in the line, and the caret not before the slice.

What is shown is told by what stands before, at and behind the column, each drawn by itself
(`expandTabs_parts`).  The caret has the front of it to its left, however much of that is
cut off (`ShownLine.Marks`), so it stands under its character, under the first blank of a tab,
or just behind the line where there is no character.  `excerpt_aligned` says so of whole excerpts,
for every location.
-/
import LogInterface.Proofs.Text.Excerpt

namespace LogInterface.Text

set_option autoImplicit false

/-! ## Checked bounds -/

/-- The difference of two numbers, if there is one. -/
def minus? (a b : Nat) : Option Nat := if b ≤ a then some (a - b) else none

/-- What stands in a list from one index to another one, if both lie in it and in this order. -/
def slice? (xs : List Char) (first last : Nat) : Option (List Char) :=
  if first ≤ last ∧ last ≤ xs.length then some ((xs.drop first).take (last - first)) else none

/-- A line as it is shown, with every slice and every difference checked.  Only the column and the
start of the context stop at zero, as they are meant to. -/
def ShownLine.ofLine? (row : List Char) (column : Nat) : Option ShownLine :=
  let expanded := expandTabs row
  let caret := (expandTabs (row.take (column - 1))).length
  if expanded.length ≤ maxShownLine then some ⟨expanded, caret⟩
  else do
    let first := min (caret - caretContext) expanded.length
    let last := min (caret + caretContext) expanded.length
    let before := if first > 0 then ['.', '.', '.'] else []
    let after := if last < expanded.length then ['.', '.', '.'] else []
    let shown ← slice? expanded first last
    let distance ← minus? caret first
    return ⟨before ++ shown ++ after, distance + before.length⟩

/-- No slice and no difference leaves its bounds. -/
theorem ofLine?_eq (row : List Char) (column : Nat) :
    ShownLine.ofLine? row column = some (ShownLine.ofLine row column) := by
  unfold ShownLine.ofLine? ShownLine.ofLine
  simp only
  generalize (expandTabs (row.take (column - 1))).length = caret
  generalize expandTabs row = expanded
  split
  · rfl
  · have ordered : min (caret - caretContext) expanded.length
        ≤ min (caret + caretContext) expanded.length := by omega
    have inside : min (caret + caretContext) expanded.length ≤ expanded.length :=
      Nat.min_le_right _ _
    have behind : min (caret - caretContext) expanded.length ≤ caret := by omega
    rw [slice?, if_pos ⟨ordered, inside⟩, minus?, if_pos behind]
    rfl

/-! ## Around a column -/

/-- The caret of a shown line marks the character with this index. -/
structure ShownLine.Marks (s : ShownLine) (row : List Char) (index : Nat) : Prop where
  /-- The character is shown between the end of what stands before it and the start of what stands
  behind it, with the caret under its start. -/
  parts : ∃ hidden kept kept' hidden',
    expandTabs (row.take index) = hidden ++ kept ∧
    expandTabs (row.drop (index + 1)) = kept' ++ hidden' ∧
    s.text = ellipsis hidden ++ kept
      ++ (expandTabs row[index]?.toList ++ kept' ++ ellipsis hidden') ∧
    s.caret = (ellipsis hidden ++ kept).length
  /-- What the character is drawn as starts above the caret: itself, or four blanks for a tab. -/
  under : ∀ c, row[index]? = some c → expandTabs [c] <+: s.text.drop s.caret
  /-- Where the line has no such character, the caret stands just behind it. -/
  beyond : row.length ≤ index → s.caret = s.text.length

/-- A line is drawn part by part. -/
theorem expandTabs_parts (row : List Char) (index : Nat) :
    expandTabs row = expandTabs (row.take index)
      ++ (expandTabs row[index]?.toList ++ expandTabs (row.drop (index + 1))) := by
  rw [← expandTabs_append, ← List.drop_eq_getElem?_toList_append, ← expandTabs_append,
    List.take_append_drop]

section Marks

variable {s : ShownLine} {row : List Char} {index : Nat} {hidden kept kept' hidden' : List Char}

/-- Where the caret stands follows from what is shown around it. -/
theorem ShownLine.Marks.of_parts (before : expandTabs (row.take index) = hidden ++ kept)
    (behind : expandTabs (row.drop (index + 1)) = kept' ++ hidden')
    (text : s.text = ellipsis hidden ++ kept
      ++ (expandTabs row[index]?.toList ++ kept' ++ ellipsis hidden'))
    (caret : s.caret = (ellipsis hidden ++ kept).length) : s.Marks row index := by
  have rest : s.text.drop s.caret = expandTabs row[index]?.toList ++ kept' ++ ellipsis hidden' := by
    rw [text, caret, List.drop_left]
  refine ⟨⟨hidden, kept, kept', hidden', before, behind, text, caret⟩, fun c found => ?_,
    fun past => ?_⟩
  · rw [rest, found, List.append_assoc]
    exact List.prefix_append _ _
  · -- Behind the end of the line nothing is left that could be shown or hidden.
    have nothing : row.drop (index + 1) = [] := List.drop_eq_nil_of_le (Nat.le_succ_of_le past)
    rw [nothing] at behind
    obtain ⟨rfl, rfl⟩ := List.append_eq_nil_iff.mp behind.symm
    rw [text, caret, List.getElem?_eq_none past]
    simp [expandTabs, ellipsis]

end Marks

theorem length_ellipsis_le (hidden : List Char) : (ellipsis hidden).length ≤ 3 := by
  rw [ellipsis]
  split <;> decide

/-- One character is drawn as four at most. -/
theorem length_drawn_le (row : List Char) (index : Nat) :
    (expandTabs row[index]?.toList).length ≤ 4 := by
  cases row[index]? with
  | none => exact Nat.zero_le 4
  | some c =>
      rw [Option.toList_some, expandTabs, List.flatMap_singleton]
      split
      · exact Nat.le_refl 4
      · exact Nat.le_add_left 1 3

/-- **The caret of a shown line marks its column.** -/
theorem ofLine_marks (row : List Char) (index : Nat) :
    (ShownLine.ofLine row (index + 1)).Marks row index := by
  let before := expandTabs (row.take index)
  let drawn := expandTabs row[index]?.toList
  let behind := expandTabs (row.drop (index + 1))
  have left : expandTabs (row.take (index + 1 - 1)) = before := rfl
  have whole : expandTabs row = before ++ (drawn ++ behind) := expandTabs_parts row index
  by_cases short : (before ++ (drawn ++ behind)).length ≤ maxShownLine
  · -- Nothing is hidden on either side.
    have all : before = [] ++ before := rfl
    have rest : behind = behind ++ [] := (List.append_nil _).symm
    rw [ofLine_short left whole short]
    refine .of_parts all rest ?_ rfl
    rw [ellipsis, if_pos rfl, List.nil_append, List.append_nil]
  · have width : drawn.length ≤ caretContext := Nat.le_trans (length_drawn_le row index) (by decide)
    have kept : (drawn ++ behind).take caretContext
        = drawn ++ behind.take (caretContext - drawn.length) := by
      rw [List.take_append, List.take_of_length_le width]
    have hidden : (drawn ++ behind).drop caretContext
        = behind.drop (caretContext - drawn.length) := by
      rw [List.drop_append, List.drop_of_length_le width, List.nil_append]
    rw [ofLine_long left whole short, kept, hidden]
    exact .of_parts (List.take_append_drop _ _).symm (List.take_append_drop _ _).symm rfl rfl

/-- No more is shown than fits. -/
theorem length_ofLine_le (row : List Char) (index : Nat) :
    (ShownLine.ofLine row (index + 1)).text.length ≤ maxShownLine := by
  let start := expandTabs (row.take index)
  let rest := expandTabs row[index]?.toList ++ expandTabs (row.drop (index + 1))
  have left : expandTabs (row.take (index + 1 - 1)) = start := rfl
  have whole : expandTabs row = start ++ rest := expandTabs_parts row index
  by_cases short : (start ++ rest).length ≤ maxShownLine
  · rw [ofLine_short left whole short]
    exact short
  · have front := length_ellipsis_le (start.take (start.length - caretContext))
    have back := length_ellipsis_le (rest.drop caretContext)
    rw [ofLine_long left whole short]
    simp only [List.length_append, List.length_drop, List.length_take, maxShownLine, caretContext]
      at front back ⊢
    omega

/-! ## Whole excerpts -/

/-- The excerpt of a report has three lines and no more: a bar, the numbered line as it is shown, and
a caret in its column. -/
structure ErrorReport.Shows (r : ErrorReport) (s : ShownLine) : Prop where
  lines : ∃ bar third, r.excerpt.toList.splitOn '\n'
      = [bar, (Nat.repr r.location.line ++ " | ").toList ++ s.text, third, []] ∧
    third.idxOf? '^' = some ((Nat.repr r.location.line ++ " | ").length + s.caret)

theorem not_mem_ofLine {row : List Char} (free : '\n' ∉ row) (index : Nat) :
    '\n' ∉ (ShownLine.ofLine row (index + 1)).text := by
  obtain ⟨hidden, kept, kept', hidden', before, behind, text, -⟩ := (ofLine_marks row index).parts
  have drawn := not_mem_expandTabs free
  have dots (hidden : List Char) : '\n' ∉ ellipsis hidden := by
    rw [ellipsis]
    split <;> decide
  rw [expandTabs_parts row index, before, behind] at drawn
  simp only [List.mem_append, not_or] at drawn
  rw [text]
  simp only [List.mem_append, not_or]
  exact ⟨⟨dots _, drawn.1.2⟩, ⟨drawn.2.1, drawn.2.2.1⟩, dots _⟩

theorem mem_of_mem_dropEndWhile {p : Char → Bool} {c : Char} {cs : List Char}
    (member : c ∈ dropEndWhile p cs) : c ∈ cs := by
  exact (List.rdropWhile_prefix p cs).subset member

/-- An excerpt shows the line of its location. -/
theorem excerpt_shows {r : ErrorReport} {row : List Char} {index : Nat}
    (found : lineAt? r.source r.location.line = some row) (free : '\n' ∉ row)
    (unbroken : '\n' ∉ r.caption.toList) (column : r.location.column - 1 = index) :
    r.Shows (ShownLine.ofLine row (index + 1)) := by
  have same : ShownLine.ofLine row r.location.column = ShownLine.ofLine row (index + 1) := by
    rw [ShownLine.ofLine, ShownLine.ofLine, column, Nat.add_sub_cancel]
  let width := (Nat.repr r.location.line).length
  let margin := blanks width ++ " | ".toList ++ blanks (ShownLine.ofLine row (index + 1)).caret
  let trimmed := dropEndWhile isBlank (' ' :: r.caption.toList)
  have text := excerpt_toList found
  rw [same] at text
  have first : '\n' ∉ blanks width ++ [' ', '|'] := by simp [blanks]
  have second : '\n' ∉ (Nat.repr r.location.line ++ " | ").toList
      ++ (ShownLine.ofLine row (index + 1)).text := by
    have gutter : '\n' ∉ " | ".toList := by decide
    rw [String.toList_append]
    simp only [List.mem_append, not_or]
    exact ⟨⟨not_mem_repr _, gutter⟩, not_mem_ofLine free index⟩
  have third : '\n' ∉ margin ++ '^' :: trimmed := by
    have caption : '\n' ∉ trimmed := by
      intro member
      rcases List.mem_cons.mp (mem_of_mem_dropEndWhile member) with blank | inside
      · exact absurd blank (by decide)
      · exact unbroken inside
    simp only [List.mem_append, List.mem_cons, not_or]
    exact ⟨not_mem_margin (by decide) (by decide) _ _, by decide, caption⟩
  refine ⟨blanks width ++ [' ', '|'], margin ++ '^' :: trimmed, ?_, ?_⟩
  · rw [text, splitOn_line first, splitOn_line second, ← List.cons_append, ← List.append_assoc,
      splitOn_line third]
    rfl
  · have unmarked : '^' ∉ margin := not_mem_margin (by decide) (by decide) _ _
    have gutter : " | ".length = 3 := by decide
    rw [idxOf?_append_cons unmarked, String.length_append, gutter]
    simp [margin, width, blanks]
    omega

theorem excerpt_eq_empty_iff (r : ErrorReport) :
    r.excerpt = "" ↔ lineAt? r.source r.location.line = none := by
  constructor
  · intro empty
    cases found : lineAt? r.source r.location.line with
    | none => rfl
    | some row =>
        have text := excerpt_toList found
        rw [empty] at text
        simp at text
  · intro missing
    rw [ErrorReport.excerpt, missing]

/-- **Excerpts are well formed and aligned**, for every text, line, column and caption of one line.
There is no excerpt exactly where the line does not exist.  Otherwise nothing is cut out of
bounds, and three lines show what fits of the line and a caret under its column. -/
theorem excerpt_aligned {r : ErrorReport} (unbroken : '\n' ∉ r.caption.toList) :
    (r.excerpt = "" ↔ (splitLines r.source.toList).length < max r.location.line 1) ∧
      ∀ row, (splitLines r.source.toList)[max r.location.line 1 - 1]? = some row →
        ∃ s, ShownLine.ofLine? row r.location.column = some s ∧ r.Shows s ∧
          s.text.length ≤ 80 ∧ s.Marks row (max r.location.column 1 - 1) := by
  have number : max r.location.line 1 - 1 = r.location.line - 1 := by omega
  have column : r.location.column - 1 = max r.location.column 1 - 1 := by omega
  refine ⟨?missing, fun row found => ?shown⟩
  case missing =>
    rw [excerpt_eq_empty_iff, lineAt?, List.getElem?_eq_none_iff]
    omega
  case shown =>
    have free : '\n' ∉ row := not_mem_of_mem_splitLines (List.mem_of_getElem? found)
    rw [number] at found
    refine ⟨ShownLine.ofLine row (max r.location.column 1 - 1 + 1), ?_,
      excerpt_shows found free unbroken column, length_ofLine_le _ _, ofLine_marks _ _⟩
    rw [ofLine?_eq, ShownLine.ofLine, ShownLine.ofLine, column, Nat.add_sub_cancel]

namespace Sample

/-- A line that is cut on both sides, with a tab in the middle. -/
def wideLine : List Char := List.replicate 50 'a' ++ '\t' :: List.replicate 50 'b'

/-- A report about the tab. -/
def wide : ErrorReport :=
  { message := "blank", source := String.ofList wideLine, location := ⟨0, 51⟩, caption := "here" }

end Sample

theorem excerpt_aligned_wide :
    '\n' ∉ Sample.wide.caption.toList ∧
      (Sample.wide.excerpt = "" ↔
        (splitLines Sample.wide.source.toList).length < max Sample.wide.location.line 1) ∧
      ∃ s, ShownLine.ofLine? Sample.wideLine Sample.wide.location.column = some s ∧
        Sample.wide.Shows s ∧ s.text.length ≤ 80 ∧
        s.Marks Sample.wideLine (max Sample.wide.location.column 1 - 1) := by
  have unbroken : '\n' ∉ Sample.wide.caption.toList := by decide +kernel
  have row : (splitLines Sample.wide.source.toList)[max Sample.wide.location.line 1 - 1]?
      = some Sample.wideLine := by
    rw [Sample.wide, String.toList_ofList]
    decide +kernel
  exact ⟨unbroken, (excerpt_aligned unbroken).1, (excerpt_aligned unbroken).2 _ row⟩

end LogInterface.Text
