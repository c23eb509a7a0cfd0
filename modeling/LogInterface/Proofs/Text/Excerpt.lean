/-
# Proofs.Text.Excerpt -- the caret of an excerpt

An excerpt shows a place in a text: its line with a caret under it.  Between the text and what is
shown lie the tabs that are drawn as blanks, and in a long line the ellipses that stand for what
is left out.  Both change what stands in front of the caret and move the caret with it.

`shownBefore` and `shownAfter` are what is shown in front of the character of a place and behind
it, in terms of the place alone.  An excerpt that `PointsAt` a place has them on its second line
with the character between them, and on its third line a caret in the column of the character
(`excerpt_pointsAt`).
-/
import LogInterface.Proofs.Text.Cut
import LogInterface.Proofs.Text.Lines
import LogInterface.Text.Excerpt

namespace LogInterface.Text

set_option autoImplicit false

/-! ## What is shown -/

/-- Is a line too long to be shown whole?  It is given by what stands on it before and behind a
place. -/
def isLong (start rest : List Char) : Bool :=
  maxShownLine < (expandTabs start).length + 1 + (expandTabs rest).length

/-- The end of a line, behind an ellipsis if the line is long. -/
def shownEnd (long : Bool) (start : List Char) : List Char :=
  let drawn := expandTabs start
  if long && caretContext < drawn.length then
    ['.', '.', '.'] ++ drawn.drop (drawn.length - caretContext)
  else drawn

/-- The start of a line, in front of an ellipsis if the line is long. -/
def shownStart (long : Bool) (rest : List Char) : List Char :=
  let drawn := expandTabs rest
  if long && caretContext ≤ drawn.length then drawn.take (caretContext - 1) ++ ['.', '.', '.']
  else drawn

/-- What stands in front of the character of a place in the numbered line of an excerpt. -/
def shownBefore (before after : List Char) : List Char :=
  (Nat.repr (before.count '\n' + 1) ++ " | ").toList
    ++ shownEnd (isLong (lineStart before) (lineEnd after)) (lineStart before)

/-- What stands behind the character of a place in the numbered line of an excerpt. -/
def shownAfter (before after : List Char) : List Char :=
  shownStart (isLong (lineStart before) (lineEnd after)) (lineEnd after)

/-- The excerpt points at the character `c` between `before` and `after`: it is shown on the
second line, and the caret on the third line stands under it. -/
structure PointsAt (excerpt : String) (before : List Char) (c : Char) (after : List Char) :
    Prop where
  shown : (excerpt.toList.splitOn '\n')[1]?
    = some (shownBefore before after ++ c :: shownAfter before after)
  caret : ∃ third, (excerpt.toList.splitOn '\n')[2]? = some third ∧
    third.idxOf? '^' = some (shownBefore before after).length

/-! ## Shown lines -/

theorem expandTabs_append (s t : List Char) : expandTabs (s ++ t) = expandTabs s ++ expandTabs t :=
  List.flatMap_append

theorem expandTabs_cons {c : Char} (tab : c ≠ '\t') (cs : List Char) :
    expandTabs (c :: cs) = c :: expandTabs cs := by
  rw [expandTabs, List.flatMap_cons, if_neg tab]
  rfl

theorem not_mem_expandTabs {line : List Char} (free : '\n' ∉ line) : '\n' ∉ expandTabs line := by
  intro member
  obtain ⟨c, isThere, drawn⟩ := List.mem_flatMap.mp member
  split at drawn
  · exact absurd (List.eq_of_mem_replicate drawn) (by decide)
  · exact free (List.mem_singleton.mp drawn ▸ isThere)

/-- What is left of a long line: up to `caretContext` characters on each side of a place. -/
theorem window_append (start rest : List Char) :
    ((start ++ rest).drop (start.length - caretContext)).take
        (min (start.length + caretContext) (start ++ rest).length - (start.length - caretContext))
      = start.drop (start.length - caretContext) ++ rest.take caretContext := by
  have front : (start.drop (start.length - caretContext)).length
      = start.length - (start.length - caretContext) := List.length_drop
  have whole : (start ++ rest).length = start.length + rest.length := List.length_append
  have left : min (start.length + caretContext) (start ++ rest).length
        - (start.length - caretContext)
      = (start.drop (start.length - caretContext)).length + min caretContext rest.length := by
    rw [front, whole]
    omega
  rw [List.drop_append_of_le_length (Nat.sub_le _ _), left, List.take_length_add_append,
    ← List.take_eq_take_min]

/-- What stands for a part that is not shown. -/
def ellipsis (hidden : List Char) : List Char := if hidden = [] then [] else ['.', '.', '.']

theorem ellipsis_eq {p : Prop} [Decidable p] {hidden : List Char} (cut : p ↔ 0 < hidden.length) :
    (if p then ['.', '.', '.'] else []) = ellipsis hidden := by
  rw [ellipsis]
  by_cases holds : p
  · rw [if_pos holds, if_neg (List.length_pos_iff.mp (cut.mp holds))]
  · have empty : hidden = [] := by
      by_contra some
      exact holds (cut.mpr (List.length_pos_iff.mpr some))
    rw [if_neg holds, if_pos empty]

section OfLine

variable {line start rest : List Char} {column : Nat}

theorem ofLine_short (before : expandTabs (line.take (column - 1)) = start)
    (drawn : expandTabs line = start ++ rest) (short : (start ++ rest).length ≤ maxShownLine) :
    ShownLine.ofLine line column = ⟨start ++ rest, start.length⟩ := by
  simp only [ShownLine.ofLine, before, drawn]
  exact if_pos short

/-- A long line is cut on both sides: up to `caretContext` characters stay before the caret, and up
to as many from the caret on. -/
theorem ofLine_long (before : expandTabs (line.take (column - 1)) = start)
    (drawn : expandTabs line = start ++ rest) (long : ¬(start ++ rest).length ≤ maxShownLine) :
    let hidden := start.take (start.length - caretContext)
    let kept := start.drop (start.length - caretContext)
    ShownLine.ofLine line column
      = ⟨ellipsis hidden ++ kept ++ (rest.take caretContext ++ ellipsis (rest.drop caretContext)),
          (ellipsis hidden ++ kept).length⟩ := by
  intro hidden kept
  have first : min (start.length - caretContext) (start ++ rest).length
      = start.length - caretContext := by
    rw [List.length_append]
    omega
  have front : start.length - caretContext > 0 ↔ 0 < hidden.length := by
    rw [List.length_take]
    omega
  have back : min (start.length + caretContext) (start ++ rest).length < (start ++ rest).length
      ↔ 0 < (rest.drop caretContext).length := by
    rw [List.length_drop, List.length_append]
    omega
  have distance : start.length - (start.length - caretContext) = kept.length :=
    List.length_drop.symm
  simp only [ShownLine.ofLine, before, drawn]
  rw [if_neg long, first, window_append, ellipsis_eq front, ellipsis_eq back, distance,
    List.length_append, Nat.add_comm kept.length]
  simp only [List.append_assoc, kept]

end OfLine

/-- Where nothing is cut off, there is no ellipsis. -/
theorem shownEnd_long (start : List Char) :
    let drawn := expandTabs start
    shownEnd true start = ellipsis (drawn.take (drawn.length - caretContext))
      ++ drawn.drop (drawn.length - caretContext) := by
  intro drawn
  have cut : caretContext < drawn.length ↔ 0 < (drawn.take (drawn.length - caretContext)).length := by
    rw [List.length_take]
    omega
  rw [← ellipsis_eq cut]
  by_cases long : caretContext < drawn.length
  · rw [if_pos long]
    exact if_pos (decide_eq_true long)
  · rw [if_neg long, Nat.sub_eq_zero_of_le (Nat.le_of_not_lt long)]
    exact if_neg (by simpa using long)

theorem shownStart_long (rest : List Char) :
    let drawn := expandTabs rest
    shownStart true rest
      = drawn.take (caretContext - 1) ++ ellipsis (drawn.drop (caretContext - 1)) := by
  intro drawn
  have cut : caretContext ≤ drawn.length ↔ 0 < (drawn.drop (caretContext - 1)).length := by
    rw [List.length_drop, caretContext]
    omega
  rw [← ellipsis_eq cut]
  by_cases long : caretContext ≤ drawn.length
  · rw [if_pos long]
    exact if_pos (decide_eq_true long)
  · rw [if_neg long, List.append_nil,
      List.take_of_length_le (Nat.le_sub_one_of_lt (Nat.lt_of_not_le long))]
    exact if_neg (by simpa using long)

/-- **A line is shown around the character of its column**, and the caret comes to stand under
it. -/
theorem ofLine_place (start rest : List Char) {c : Char} (tab : c ≠ '\t') :
    ShownLine.ofLine (start ++ c :: rest) (start.length + 1)
      = ⟨shownEnd (isLong start rest) start ++ c :: shownStart (isLong start rest) rest,
          (shownEnd (isLong start rest) start).length⟩ := by
  have before : expandTabs ((start ++ c :: rest).take (start.length + 1 - 1)) = expandTabs start := by
    rw [Nat.add_sub_cancel, List.take_left]
  have drawn : expandTabs (start ++ c :: rest) = expandTabs start ++ c :: expandTabs rest := by
    rw [expandTabs_append, expandTabs_cons tab]
  have whole : (expandTabs start ++ c :: expandTabs rest).length
      = (expandTabs start).length + 1 + (expandTabs rest).length := by
    rw [List.length_append, List.length_cons]
    omega
  cases long : isLong start rest with
  | false =>
      have short : (expandTabs start ++ c :: expandTabs rest).length ≤ maxShownLine := by
        rw [whole]
        simpa [isLong] using long
      exact ofLine_short before drawn short
  | true =>
      have cut : ¬(expandTabs start ++ c :: expandTabs rest).length ≤ maxShownLine := by
        rw [whole]
        simpa [isLong] using long
      rw [ofLine_long before drawn cut, shownEnd_long, shownStart_long]
      rfl

/-! ## Lines of an excerpt -/

theorem splitOn_line {line : List Char} (free : '\n' ∉ line) (rest : List Char) :
    (line ++ '\n' :: rest).splitOn '\n' = line :: rest.splitOn '\n' := by
  rw [List.splitOn_eq_splitOnP, List.splitOn_eq_splitOnP]
  refine List.splitOnP_append_cons_of_forall_mem (fun c member => ?_) '\n' rfl rest
  exact beq_false_of_ne fun same => free (same ▸ member)

theorem splitOn_head (cs : List Char) :
    (cs.splitOn '\n').head? = some (cs.takeWhile (· ≠ '\n')) := by
  rw [List.splitOn_eq_splitOnP]
  induction cs with
  | nil => rfl
  | cons c cs ih =>
      rw [List.splitOnP_cons_eq_if_modifyHead]
      by_cases feed : c = '\n'
      · rw [if_pos (beq_iff_eq.mpr feed), List.takeWhile_cons_of_neg (by simpa using feed)]
        rfl
      · rw [if_neg (by simpa using feed), List.takeWhile_cons_of_pos (by simpa using feed),
          List.head?_modifyHead, ih]
        rfl

/-- What follows a character that stays does not matter to what stands before it. -/
theorem dropEndWhile_append {p : Char → Bool} {c : Char} (stays : p c = false) (s t : List Char) :
    dropEndWhile p (s ++ c :: t) = s ++ c :: dropEndWhile p t := by
  have kept : (c :: s.reverse).dropWhile p = c :: s.reverse :=
    List.dropWhile_cons_of_neg (by simp [stays])
  rw [dropEndWhile, List.reverse_append, List.reverse_cons, List.append_assoc,
    List.singleton_append, List.dropWhile_append, kept, dropEndWhile]
  split
  · rename_i nothing
    rw [List.isEmpty_iff.mp nothing]
    simp
  · simp

/-- A text without the white space at its end. -/
structure Trimmed (text trimmed : String) : Prop where
  rest : ∃ blanks, text.toList = trimmed.toList ++ blanks ∧ ∀ c ∈ blanks, isBlank c = true
  tight : ∀ c, trimmed.toList.getLast? = some c → isBlank c = false

theorem trimmed_trimEnd (s : String) : Trimmed s (trimEnd s) := by
  have kept : (trimEnd s).toList = s.toList.rdropWhile isBlank := String.toList_ofList
  refine ⟨⟨s.toList.rtakeWhile isBlank, ?_, fun c member => List.mem_rtakeWhile_imp member⟩, ?_⟩
  · rw [kept, List.rdropWhile_append_rtakeWhile]
  · intro c last
    rw [kept] at last
    obtain ⟨some, rfl⟩ := List.mem_getLast?_eq_getLast last
    exact Bool.eq_false_iff.mpr (List.rdropWhile_last_not _ _ some)

theorem idxOf?_append_cons {xs : List Char} {c : Char} (fresh : c ∉ xs) (ys : List Char) :
    (xs ++ c :: ys).idxOf? c = some xs.length := by
  induction xs with
  | nil => rw [List.nil_append, List.idxOf?_cons, if_pos (beq_self_eq_true c)]; rfl
  | cons d xs ih =>
      obtain ⟨other, fresh⟩ := List.ne_and_not_mem_of_not_mem_cons fresh
      rw [List.cons_append, List.idxOf?_cons, if_neg (by simpa using Ne.symm other), ih fresh]
      rfl

theorem toList_trimEnd_caret (margin caption : String) :
    (trimEnd (margin ++ "^ " ++ caption)).toList
      = margin.toList ++ '^' :: dropEndWhile isBlank (' ' :: caption.toList) := by
  have caret : "^ ".toList = ['^', ' '] := by decide
  rw [trimEnd, String.toList_ofList, String.toList_append, String.toList_append, caret,
    List.append_assoc]
  exact dropEndWhile_append (by decide) _ _

theorem excerpt_toList {r : ErrorReport} {line : List Char}
    (found : lineAt? r.source r.location.line = some line) :
    r.excerpt.toList
      = (blanks (Nat.repr r.location.line).length ++ [' ', '|']) ++ '\n' ::
        (((Nat.repr r.location.line ++ " | ").toList
          ++ (ShownLine.ofLine line r.location.column).text) ++ '\n' ::
        ((blanks (Nat.repr r.location.line).length ++ " | ".toList
          ++ blanks (ShownLine.ofLine line r.location.column).caret) ++ '^' ::
          (dropEndWhile isBlank (' ' :: r.caption.toList) ++ ['\n']))) := by
  have bar : " |\n".toList = [' ', '|', '\n'] := by decide
  have feed : "\n".toList = ['\n'] := by decide
  simp only [ErrorReport.excerpt, found, toList_trimEnd_caret, String.toList_append,
    String.toList_ofList, bar, feed, List.append_assoc, List.cons_append, List.nil_append]

theorem not_mem_repr (n : Nat) : '\n' ∉ (Nat.repr n).toList := by
  rw [Nat.toList_repr]
  exact notMem_toDigits (by decide) n

theorem not_mem_shownEnd {long : Bool} {start : List Char} (free : '\n' ∉ start) :
    '\n' ∉ shownEnd long start := by
  have drawn := not_mem_expandTabs free
  rw [shownEnd]
  split
  · rw [List.mem_append, not_or]
    exact ⟨by decide, fun member => drawn (List.mem_of_mem_drop member)⟩
  · exact drawn

theorem not_mem_shownStart {long : Bool} {rest : List Char} (free : '\n' ∉ rest) :
    '\n' ∉ shownStart long rest := by
  have drawn := not_mem_expandTabs free
  rw [shownStart]
  split
  · rw [List.mem_append, not_or]
    exact ⟨fun member => drawn (List.mem_of_mem_take member), by decide⟩
  · exact drawn

/-- The blanks in front of a caret hide neither it nor a line feed. -/
theorem not_mem_margin {c : Char} (blank : c ≠ ' ') (bar : c ≠ '|') (width caret : Nat) :
    c ∉ blanks width ++ " | ".toList ++ blanks caret := by
  have gutter : " | ".toList = [' ', '|', ' '] := by decide
  rw [gutter]
  simp [blanks, blank, bar]

theorem not_mem_numbered (before after : List Char) {c : Char} (feed : c ≠ '\n') :
    '\n' ∉ shownBefore before after ++ c :: shownAfter before after := by
  have number := not_mem_repr (before.count '\n' + 1)
  have gutter : '\n' ∉ " | ".toList := by decide
  rw [shownBefore, String.toList_append]
  simp only [List.mem_append, List.mem_cons, not_or]
  exact ⟨⟨⟨number, gutter⟩, not_mem_shownEnd (not_mem_lineStart before)⟩, Ne.symm feed,
    not_mem_shownStart (not_mem_lineEnd after)⟩

/-- A text points at a place if its second line is the line of the place and the margin in front
of the caret is as long as what is shown before the character. -/
theorem pointsAt_of_lines {excerpt : String} {before after first margin rest : List Char} {c : Char}
    (text : excerpt.toList = first ++ '\n' ::
      ((shownBefore before after ++ c :: shownAfter before after) ++ '\n' ::
        (margin ++ '^' :: rest)))
    (feed : c ≠ '\n') (single : '\n' ∉ first) (unbroken : '\n' ∉ margin) (unmarked : '^' ∉ margin)
    (under : margin.length = (shownBefore before after).length) : PointsAt excerpt before c after := by
  have third : ((margin ++ '^' :: rest).splitOn '\n').head?
      = some (margin ++ '^' :: rest.takeWhile (· ≠ '\n')) := by
    rw [splitOn_head, List.takeWhile_append_of_pos, List.takeWhile_cons_of_pos (by decide)]
    intro d member
    exact decide_eq_true fun same => unbroken (same ▸ member)
  have lines := splitOn_line single ((shownBefore before after ++ c :: shownAfter before after)
    ++ '\n' :: (margin ++ '^' :: rest))
  rw [← text, splitOn_line (not_mem_numbered before after feed)] at lines
  refine ⟨?_, margin ++ '^' :: rest.takeWhile (· ≠ '\n'), ?_, ?_⟩
  · rw [lines]
    rfl
  · rw [lines]
    exact List.head?_eq_getElem?.symm.trans third
  · rw [idxOf?_append_cons unmarked, under]

/-- **An excerpt points at the character of its location**, whatever surrounds it. -/
theorem excerpt_pointsAt {r : ErrorReport} {before after : List Char} {c : Char}
    (place : r.source.toList = before ++ c :: after) (located : r.location = Location.after before)
    (feed : c ≠ '\n') (carriage : c ≠ '\r') (tab : c ≠ '\t') :
    PointsAt r.excerpt before c after := by
  have line : lineAt? r.source r.location.line = some (lineStart before ++ c :: lineEnd after) := by
    rw [located]
    exact lineAt?_place place feed carriage
  have number : (Location.after before).line = before.count '\n' + 1 := rfl
  have text := excerpt_toList line
  rw [located, column_after, ofLine_place _ _ tab, number, ← List.append_assoc] at text
  refine pointsAt_of_lines text feed (by simp [blanks]) ?_ ?_ ?_
  · exact not_mem_margin (by decide) (by decide) _ _
  · exact not_mem_margin (by decide) (by decide) _ _
  · simp [shownBefore, blanks, -Nat.toList_repr, String.length_toList]

end LogInterface.Text
