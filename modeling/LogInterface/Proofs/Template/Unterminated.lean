/-
# Proofs.Template.Unterminated -- the placeholder that is never closed

`parse` has one error, and says two places with it: where the template ends and where a
placeholder starts.  `LeavesOpen` says when a template has such a placeholder without reading it
from left to right: a front that is a template by itself, an opening brace, and a name that could
stand in a placeholder.  Whether a brace opens a placeholder depends on all that stands before it,
as braces are taken in pairs; that the front is read by itself just as in the whole template
(`read_append`) is what makes one split of it right and every other wrong.

* `parse_error_iff`: there are no other failures.
* `unterminated_located`: the two places are the ends of the front and of the template, and the
  brace that the suggestion asks for makes the name a placeholder behind the segments of the front.
-/
import LogInterface.Proofs.Template.Parts

namespace LogInterface.Template

open LogInterface.Text

set_option autoImplicit false

/-! ## Reading a front -/

theorem read_lone {cs : List Char} (single : cs.head? ≠ some closing) :
    read (closing :: cs) = (read cs).push .lone := by
  have closes : closing ≠ opening := by decide
  rw [read, if_neg (fun h => closes h.1), if_neg closes, if_neg (fun h => single h.2), if_pos rfl]

/-- What `read` asks of a placeholder, of its name. -/
theorem hole_of_split {cs name rest : List Char} (split : splitHole cs = some (name, rest))
    (single : cs.head? ≠ some opening) :
    cs = name ++ closing :: rest ∧ closing ∉ name ∧ name.head? ≠ some opening := by
  obtain ⟨rfl, free⟩ := splitHole_eq_some split
  refine ⟨rfl, free, fun starts => single ?_⟩
  rw [List.head?_append, starts]
  rfl

/-- **A front that leaves nothing open is read by itself.**  Only a closing brace could change it,
as the second of two. -/
theorem read_append {front : List Char} (closed : (read front).unclosed = none)
    {rest : List Char} (apart : rest.head? ≠ some closing) :
    read (front ++ rest) = ⟨(read front).lexemes ++ (read rest).lexemes, (read rest).unclosed⟩ := by
  fun_induction read front with
  | case1 => rfl
  | case2 c cs doubled ih =>
      obtain ⟨rfl, next⟩ := doubled
      obtain ⟨behind, rfl⟩ := List.head?_eq_some_iff.mp next
      rw [List.cons_append, List.cons_append, read_opens]
      exact congrArg (Reading.push .opens) (ih closed)
  | case3 cs none single => cases closed
  | case4 cs name behind split shorter single ih =>
      obtain ⟨rfl, free, starts⟩ := hole_of_split split fun next => single ⟨rfl, next⟩
      have shape : opening :: (name ++ closing :: behind) ++ rest
          = opening :: (name ++ closing :: (behind ++ rest)) := by simp
      rw [shape, read_hole free starts]
      exact congrArg (Reading.push (.hole name)) (ih closed)
  | case5 c cs notOpening notHole doubled ih =>
      obtain ⟨rfl, next⟩ := doubled
      obtain ⟨behind, rfl⟩ := List.head?_eq_some_iff.mp next
      rw [List.cons_append, List.cons_append, read_closes]
      exact congrArg (Reading.push .closes) (ih closed)
  | case6 cs notOpening notHole single ih =>
      have alone : (cs ++ rest).head? ≠ some closing := by
        cases cs with
        | nil => exact apart
        | cons c cs => exact fun next => single ⟨rfl, next⟩
      rw [List.cons_append, read_lone alone]
      exact congrArg (Reading.push .lone) (ih closed)
  | case7 c cs notOpening notHole notDoubled notClosing ih =>
      rw [List.cons_append, read_plain notHole notClosing]
      exact congrArg (Reading.push (.plain c)) (ih closed)

/-- The first character of a template is that of its front, if there is one. -/
theorem head_closed {cs : List Char} {c : Char} (first : (read cs).closed.head? = some c) :
    cs.head? = some c := by
  have written := read_written cs
  rw [Reading.written] at written
  rw [← written, List.head?_append, first]
  rfl

/-- A front of a template starts as the template does. -/
theorem head_front {cs : List Char} {ls rs : List Lexeme} (cut : (read cs).lexemes = ls ++ rs)
    {c : Char} (first : (ls.flatMap Lexeme.written).head? = some c) : cs.head? = some c := by
  refine head_closed ?_
  rw [Reading.closed, cut, List.flatMap_append, List.head?_append, first]
  rfl

/-- **The first lexemes of a template are read by themselves** just as they were in it. -/
theorem read_front {cs : List Char} {ls rs : List Lexeme} (cut : (read cs).lexemes = ls ++ rs) :
    read (ls.flatMap Lexeme.written) = ⟨ls, none⟩ := by
  fun_induction read cs generalizing ls with
  | case1 =>
      obtain ⟨rfl, -⟩ := List.append_eq_nil_iff.mp cut.symm
      exact read_nil
  | case2 c cs doubled ih =>
      obtain ⟨rfl, -⟩ | ⟨ls, rfl, behind⟩ := List.cons_eq_append_iff.mp cut
      · exact read_nil
      · exact (read_opens _).trans (congrArg (Reading.push .opens) (ih behind))
  | case3 cs none single =>
      obtain ⟨rfl, -⟩ := List.append_eq_nil_iff.mp cut.symm
      exact read_nil
  | case4 cs name rest split shorter single ih =>
      obtain ⟨rfl, free, starts⟩ := hole_of_split split fun next => single ⟨rfl, next⟩
      obtain ⟨rfl, -⟩ | ⟨ls, rfl, behind⟩ := List.cons_eq_append_iff.mp cut
      · exact read_nil
      · have shape : (Lexeme.hole name :: ls).flatMap Lexeme.written
            = opening :: (name ++ closing :: ls.flatMap Lexeme.written) := by
          simp [Lexeme.written]
        rw [shape, read_hole free starts, ih behind]
        rfl
  | case5 c cs notOpening notHole doubled ih =>
      obtain ⟨rfl, -⟩ | ⟨ls, rfl, behind⟩ := List.cons_eq_append_iff.mp cut
      · exact read_nil
      · exact (read_closes _).trans (congrArg (Reading.push .closes) (ih behind))
  | case6 cs notOpening notHole single ih =>
      obtain ⟨rfl, -⟩ | ⟨ls, rfl, behind⟩ := List.cons_eq_append_iff.mp cut
      · exact read_nil
      · have alone : (ls.flatMap Lexeme.written).head? ≠ some closing := fun first =>
          single ⟨rfl, head_front behind first⟩
        exact (read_lone alone).trans (congrArg (Reading.push .lone) (ih behind))
  | case7 c cs notOpening notHole notDoubled notClosing ih =>
      obtain ⟨rfl, -⟩ | ⟨ls, rfl, behind⟩ := List.cons_eq_append_iff.mp cut
      · exact read_nil
      · exact (read_plain notHole notClosing _).trans (congrArg (Reading.push (.plain c)) (ih behind))

/-- **The front of a template leaves nothing open**, and is read as it was in the template. -/
theorem read_closed (cs : List Char) : read (read cs).closed = ⟨(read cs).lexemes, none⟩ :=
  read_front (List.append_nil _).symm

theorem closed_eq_self {cs : List Char} (closed : (read cs).unclosed = none) :
    (read cs).closed = cs := by
  have written := read_written cs
  rw [Reading.written, closed, List.append_nil] at written
  exact written

/-! ## What stays open -/

theorem splitHole_eq_none {cs : List Char} : splitHole cs = none ↔ closing ∉ cs := by
  induction cs with
  | nil => exact ⟨fun _ => List.not_mem_nil, fun _ => rfl⟩
  | cons c cs ih =>
      rw [splitHole, List.mem_cons, not_or]
      by_cases closes : c = closing
      · rw [if_pos closes]
        refine ⟨fun none => ?_, fun free => absurd closes.symm free.1⟩
        cases none
      · rw [if_neg closes, Option.map_eq_none_iff, ih]
        exact ⟨fun free => ⟨Ne.symm closes, free⟩, fun free => free.2⟩

theorem read_opening {name : List Char} (free : closing ∉ name)
    (single : name.head? ≠ some opening) : read (opening :: name) = ⟨[], some name⟩ := by
  rw [read, if_neg (fun h => single h.2), if_pos rfl]
  split
  · rfl
  · rename_i found
    rw [splitHole_eq_none.mpr free] at found
    cases found

/-- What stands behind the brace could stand in a placeholder. -/
theorem unclosed_proper {cs name : List Char} (unclosed : (read cs).unclosed = some name) :
    closing ∉ name ∧ name.head? ≠ some opening := by
  fun_induction read cs with
  | case1 => cases unclosed
  | case3 cs none single =>
      cases unclosed
      exact ⟨splitHole_eq_none.mp none, fun next => single ⟨rfl, next⟩⟩
  | case2 c cs doubled ih => exact ih unclosed
  | case4 cs name rest split shorter single ih => exact ih unclosed
  | case5 c cs notOpening notHole doubled ih => exact ih unclosed
  | case6 cs notOpening notHole single ih => exact ih unclosed
  | case7 c cs notOpening notHole notDoubled notClosing ih => exact ih unclosed

/-! ## Segments of a front -/

theorem withText_append (text : List Char) (segments rest : List Segment) :
    withText text (segments ++ rest) = withText text segments ++ rest := by
  cases text <;> rfl

/-- A placeholder at the end of a template starts where the rest of it ends. -/
theorem segmentsFrom_append_hole (text : List Char) (offset : Nat) (ls : List Lexeme)
    (name : List Char) :
    segmentsFrom text offset (ls ++ [.hole name])
      = segmentsFrom text offset ls
        ++ [.placeholder (String.ofList name) (offset + byteLength (ls.flatMap Lexeme.written))] := by
  induction ls generalizing text offset with
  | nil => exact withText_append text [] _
  | cons l ls ih =>
      have place : offset + byteLength ((l :: ls).flatMap Lexeme.written)
          = offset + byteLength l.written + byteLength (ls.flatMap Lexeme.written) := by
        rw [List.flatMap_cons, byteLength_append, Nat.add_assoc]
      rw [List.cons_append, place]
      cases stands : l.char? with
      | some c => rw [segmentsFrom_char stands, segmentsFrom_char stands, ih]
      | none =>
          obtain ⟨inner, rfl⟩ : ∃ inner, l = .hole inner := by cases l <;> simp_all [Lexeme.char?]
          rw [segmentsFrom, segmentsFrom, ih, ← withText_append, List.cons_append]

/-- Segments without an empty text that stands alone. -/
def trimmed (segments : List Segment) : List Segment :=
  if segments = [.literal ""] then [] else segments

theorem empty_not_mem_segmentsFrom (ls : List Lexeme) :
    .literal "" ∉ segmentsFrom [] 0 ls := by
  intro member
  have part : Part.text "" ∈ (segmentsFrom [] 0 ls).map Segment.part :=
    List.mem_map_of_mem (f := Segment.part) member
  rw [map_part_segmentsFrom, List.reverse_nil, String.ofList_nil, before_empty] at part
  exact empty_not_mem_merged _ part

theorem trimmed_orEmpty {segments : List Segment} (filled : .literal "" ∉ segments) :
    trimmed (orEmpty segments) = segments := by
  cases segments with
  | nil => rfl
  | cons segment rest =>
      refine if_neg fun alone => filled ?_
      rw [show segment :: rest = [.literal ""] from alone]
      exact List.mem_singleton_self _

theorem orEmpty_append (segments : List Segment) (last : Segment) :
    orEmpty (segments ++ [last]) = segments ++ [last] := by
  cases segments <;> rfl

/-! ## Templates -/

/-- The template is a front that can be parsed, an opening brace, and a name that could stand in
a placeholder. -/
structure LeavesOpen (template front name : String) : Prop where
  split : template = front ++ "\x7b" ++ name
  parses : ∃ segments, parse front = .ok segments
  named : IsHoleName name

theorem LeavesOpen.reading {template front name : String} (opens : LeavesOpen template front name) :
    read template.toList = ⟨(read front.toList).lexemes, some name.toList⟩ := by
  obtain ⟨segments, parsed⟩ := opens.parses
  have shape : template.toList = front.toList ++ opening :: name.toList := by
    rw [opens.split, String.toList_append, String.toList_append, List.append_assoc]
    rfl
  have apart : (opening :: name.toList).head? ≠ some closing := by
    rw [List.head?_cons]
    decide
  rw [shape, read_append (closed_of_parse parsed) apart,
    read_opening opens.named.1 opens.named.2, List.append_nil]

/-- There is one such front and one such name. -/
theorem LeavesOpen.unique {template front name front' name' : String}
    (opens : LeavesOpen template front name) (others : LeavesOpen template front' name') :
    front' = front ∧ name' = name := by
  have readings := opens.reading.symm.trans others.reading
  have names : name'.toList = name.toList :=
    (Option.some.inj (congrArg Reading.unclosed readings)).symm
  have same : name' = name := String.toList_inj.mp names
  have splits : front' ++ "\x7b" ++ name = front ++ "\x7b" ++ name := by
    rw [← opens.split, ← same]
    exact others.split.symm
  refine ⟨String.toList_inj.mp ?_, same⟩
  have chars := congrArg String.toList splits
  simp only [String.toList_append, List.append_assoc] at chars
  exact List.append_cancel_right chars

/-- A template that cannot be parsed leaves a placeholder open. -/
theorem leavesOpen_of_error {template : String} {e : TemplateError}
    (failed : parse template = .error e) : ∃ front name, LeavesOpen template front name := by
  cases unclosed : (read template.toList).unclosed with
  | none =>
      rw [parse_of_closed unclosed] at failed
      cases failed
  | some name =>
      refine ⟨String.ofList (read template.toList).closed, String.ofList name, ?_, ?_, ?_⟩
      · have written := read_written template.toList
        rw [Reading.written, unclosed] at written
        rw [← String.toList_inj, String.toList_append, String.toList_append, String.toList_ofList,
          String.toList_ofList, String.toList_ofList, List.append_assoc]
        exact written.symm
      · refine ⟨_, parse_of_closed ?_⟩
        rw [String.toList_ofList, read_closed]
      · rw [IsHoleName, String.toList_ofList]
        exact unclosed_proper unclosed

theorem LeavesOpen.error {template front name : String} (opens : LeavesOpen template front name) :
    parse template = .error ⟨template.utf8ByteSize, front.utf8ByteSize⟩ := by
  obtain ⟨segments, parsed⟩ := opens.parses
  have written : (read template.toList).written = template.toList := read_written _
  have closed : (read template.toList).closed = front.toList := by
    rw [Reading.closed, opens.reading]
    exact closed_eq_self (closed_of_parse parsed)
  rw [parse_eq, Reading.outcome, written, closed, opens.reading, Nat.zero_add, Nat.zero_add,
    ← utf8ByteSize_ofList, ← utf8ByteSize_ofList, String.ofList_toList, String.ofList_toList]
  rfl

/-- The closing brace makes the rest of the template a placeholder. -/
theorem LeavesOpen.mended {template front name : String}
    (opens : LeavesOpen template front name) :
    read (template ++ "\x7d").toList
      = ⟨(read front.toList).lexemes ++ [.hole name.toList], none⟩ := by
  obtain ⟨segments, parsed⟩ := opens.parses
  have shape : (template ++ "\x7d").toList
      = front.toList ++ opening :: (name.toList ++ closing :: []) := by
    rw [opens.split]
    simp [opening, closing]
  have apart : (opening :: (name.toList ++ closing :: [])).head? ≠ some closing := by
    rw [List.head?_cons]
    decide
  rw [shape, read_append (closed_of_parse parsed) apart, read_hole opens.named.1 opens.named.2,
    read_nil]
  rfl

/-- **A template cannot be parsed if a placeholder stays open in it**, and for no other reason. -/
theorem parse_error_iff {template : String} :
    (∃ e, parse template = .error e) ↔ ∃ front name, LeavesOpen template front name := by
  constructor
  · rintro ⟨e, failed⟩
    exact leavesOpen_of_error failed
  · rintro ⟨front, name, opens⟩
    exact ⟨_, opens.error⟩

/-- Following the suggestion of the error works: the segments are those of the front, and the name
has become a placeholder behind them. -/
theorem LeavesOpen.parse_mended {template front name : String}
    (opens : LeavesOpen template front name) :
    ∃ segments, parse front = .ok segments ∧
      parse (template ++ "\x7d")
        = .ok (trimmed segments ++ [.placeholder name front.utf8ByteSize]) := by
  obtain ⟨segments, parsed⟩ := opens.parses
  have closed := closed_of_parse parsed
  have bytes : byteLength ((read front.toList).lexemes.flatMap Lexeme.written)
      = front.utf8ByteSize := by
    rw [← Reading.closed, closed_eq_self closed, ← utf8ByteSize_ofList, String.ofList_toList]
  refine ⟨_, parse_of_closed closed, ?_⟩
  have mended : (read (template ++ "\x7d").toList).unclosed = none := by rw [opens.mended]
  rw [parse_of_closed mended, opens.mended, segmentsFrom_append_hole, orEmpty_append,
    trimmed_orEmpty (empty_not_mem_segmentsFrom _), bytes, Nat.zero_add, String.ofList_toList]

/-- **An unterminated placeholder is located exactly, and can be mended as the error suggests.**
It is the only failure; there is one split of the template at its brace; the error has the length
of the front and that of the template; and with the closing brace the template is the segments of
the front and a placeholder there. -/
theorem unterminated_located (template : String) :
    ((∃ e, parse template = .error e) ↔ ∃ front name, LeavesOpen template front name) ∧
    ∀ front name, LeavesOpen template front name →
      (∀ front' name', LeavesOpen template front' name' → front' = front ∧ name' = name) ∧
      parse template = .error ⟨template.utf8ByteSize, front.utf8ByteSize⟩ ∧
      ∃ segments, parse front = .ok segments ∧
        parse (template ++ "\x7d")
          = .ok (trimmed segments ++ [.placeholder name front.utf8ByteSize]) :=
  ⟨parse_error_iff, fun _ _ opens =>
    ⟨fun _ _ others => opens.unique others, opens.error, opens.parse_mended⟩⟩

/-- A doubled brace, a lone one and a letter of two bytes in front of the brace, and braces behind
it. -/
theorem unterminated_located_braces :
    LeavesOpen "é\x7b\x7b\x7d\x7ba\x7b\x7b" "é\x7b\x7b\x7d" "a\x7b\x7b" ∧
      parse "é\x7b\x7b\x7d\x7ba\x7b\x7b" = .error ⟨9, 5⟩ ∧
      parse "é\x7b\x7b\x7d\x7ba\x7b\x7b\x7d"
        = .ok [.literal "é\x7b\x7d", .placeholder "a\x7b\x7b" 5] := by
  have opens : LeavesOpen "é\x7b\x7b\x7d\x7ba\x7b\x7b" "é\x7b\x7b\x7d" "a\x7b\x7b" :=
    ⟨by decide, ⟨[.literal "é\x7b\x7d"], by decide⟩, by decide⟩
  obtain ⟨-, failed, segments, parsed, mended⟩ := (unterminated_located _).2 _ _ opens
  have front : parse "é\x7b\x7b\x7d" = .ok [.literal "é\x7b\x7d"] := by decide
  cases front.symm.trans parsed
  exact ⟨opens, failed, mended⟩

end LogInterface.Template
