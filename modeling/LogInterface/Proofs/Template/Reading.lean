/-
# Proofs.Template.Reading -- templates read from left to right

A template is a row of lexemes: a doubled brace, a closing brace alone, a whole
placeholder, or any other character.  `read` cuts a template into its lexemes,
up to a placeholder that is never closed.

* `read_written`: the lexemes, and what stays open, are the whole template.
* `parse_eq`: `parse` answers the segments of the lexemes, and fails exactly
  where a placeholder stays open, at its brace.

`segmentsFrom` collects lexemes into segments as `textFrom` collects characters,
but it never fails and looks at no character twice; what is said about templates
is proved of it.
-/
import LogInterface.Template.Basic

namespace LogInterface.Template

open LogInterface.Text

set_option autoImplicit false

/-! ## Lexemes -/

/-- One unit of a template. -/
inductive Lexeme where
  /-- A doubled opening brace. -/
  | opens
  /-- A doubled closing brace. -/
  | closes
  /-- A closing brace alone. -/
  | lone
  /-- A placeholder, by what stands between its braces. -/
  | hole (name : List Char)
  /-- Any other character. -/
  | plain (c : Char)
  deriving DecidableEq, Repr

def Lexeme.written : Lexeme → List Char
  | .opens => [opening, opening]
  | .closes => [closing, closing]
  | .lone => [closing]
  | .hole name => opening :: (name ++ [closing])
  | .plain c => [c]

/-- The character that a lexeme stands for, unless it is a placeholder. -/
def Lexeme.char? : Lexeme → Option Char
  | .opens => some opening
  | .closes => some closing
  | .lone => some closing
  | .hole _ => none
  | .plain c => some c

/-- The lexemes of a template, up to a placeholder that is never closed. -/
structure Reading where
  lexemes : List Lexeme
  /-- What stands behind the brace of that placeholder. -/
  unclosed : Option (List Char)
  deriving DecidableEq, Repr

def Reading.push (l : Lexeme) (r : Reading) : Reading := ⟨l :: r.lexemes, r.unclosed⟩

/-- The characters in front of a placeholder that stays open. -/
def Reading.closed (r : Reading) : List Char := r.lexemes.flatMap Lexeme.written

def Reading.written (r : Reading) : List Char :=
  r.closed ++
    match r.unclosed with
    | none => []
    | some rest => opening :: rest

/-- The name of a placeholder and what follows its closing brace. -/
def splitHole : List Char → Option (List Char × List Char)
  | [] => none
  | c :: cs =>
      if c = closing then some ([], cs)
      else (splitHole cs).map fun (name, rest) => (c :: name, rest)

theorem splitHole_eq_some {cs name rest : List Char} (split : splitHole cs = some (name, rest)) :
    cs = name ++ closing :: rest ∧ closing ∉ name := by
  induction cs generalizing name with
  | nil => simp [splitHole] at split
  | cons c cs ih =>
      rw [splitHole] at split
      split at split
      · rename_i closes
        cases split
        exact ⟨by rw [closes]; rfl, List.not_mem_nil⟩
      · rename_i other
        obtain ⟨⟨inner, behind⟩, found, same⟩ := Option.map_eq_some_iff.mp split
        cases same
        obtain ⟨rfl, free⟩ := ih found
        refine ⟨rfl, ?_⟩
        rw [List.mem_cons]
        rintro (rfl | member)
        · exact other rfl
        · exact free member

theorem splitHole_append {name : List Char} (free : closing ∉ name) (rest : List Char) :
    splitHole (name ++ closing :: rest) = some (name, rest) := by
  induction name with
  | nil => rw [List.nil_append, splitHole, if_pos rfl]
  | cons c cs ih =>
      rw [List.mem_cons, not_or] at free
      rw [List.cons_append, splitHole, if_neg (Ne.symm free.1), ih free.2]
      rfl

theorem splitHole_length {cs name rest : List Char} (split : splitHole cs = some (name, rest)) :
    rest.length < cs.length := by
  rw [(splitHole_eq_some split).1, List.length_append, List.length_cons]
  omega

/-- The lexemes of a template, read from left to right. -/
def read : List Char → Reading
  | [] => ⟨[], none⟩
  | c :: cs =>
      if c = opening ∧ cs.head? = some opening then (read cs.tail).push .opens
      else if c = opening then
        match split : splitHole cs with
        | none => ⟨[], some cs⟩
        | some (name, rest) =>
            have := splitHole_length split
            (read rest).push (.hole name)
      else if c = closing ∧ cs.head? = some closing then (read cs.tail).push .closes
      else if c = closing then (read cs).push .lone
      else (read cs).push (.plain c)
termination_by cs => cs.length
decreasing_by all_goals simp only [List.length_tail, List.length_cons]; omega

/-! ## One lexeme at a time -/

theorem read_nil : read [] = ⟨[], none⟩ := by rw [read]

theorem read_opens (cs : List Char) :
    read (opening :: opening :: cs) = (read cs).push .opens := by
  rw [read]
  simp

theorem read_closes (cs : List Char) :
    read (closing :: closing :: cs) = (read cs).push .closes := by
  rw [read]
  simp [opening, closing]

theorem read_plain {c : Char} (opens : c ≠ opening) (closes : c ≠ closing) (cs : List Char) :
    read (c :: cs) = (read cs).push (.plain c) := by
  rw [read]
  simp [opens, closes]

theorem read_hole {name : List Char} (free : closing ∉ name) (single : name.head? ≠ some opening)
    (rest : List Char) :
    read (opening :: (name ++ closing :: rest)) = (read rest).push (.hole name) := by
  have behind : (name ++ closing :: rest).head? ≠ some opening := by
    cases name with
    | nil => simp [opening, closing]
    | cons c cs => simpa using single
  rw [read, if_neg (fun h => behind h.2), if_pos rfl]
  split
  · rename_i none
    rw [splitHole_append free] at none
    cases none
  · rename_i found
    rw [splitHole_append free] at found
    cases found
    rfl

theorem push_written (l : Lexeme) (r : Reading) : (r.push l).written = l.written ++ r.written := by
  simp [Reading.written, Reading.closed, Reading.push]

/-- **Nothing of a template is lost.** -/
theorem read_written (cs : List Char) : (read cs).written = cs := by
  fun_induction read cs with
  | case1 => rfl
  | case2 c cs doubled ih =>
      obtain ⟨rfl, next⟩ := doubled
      obtain ⟨rest, rfl⟩ := List.head?_eq_some_iff.mp next
      rw [push_written, ih]
      rfl
  | case3 cs single none => rfl
  | case4 cs name rest split shorter single ih =>
      rw [push_written, ih, (splitHole_eq_some split).1]
      simp [Lexeme.written]
  | case5 c cs notOpening notHole doubled ih =>
      obtain ⟨rfl, next⟩ := doubled
      obtain ⟨rest, rfl⟩ := List.head?_eq_some_iff.mp next
      rw [push_written, ih]
      rfl
  | case6 cs notOpening notHole single ih =>
      rw [push_written, ih]
      rfl
  | case7 c cs notOpening notHole notDoubled notClosing ih =>
      rw [push_written, ih]
      rfl

/-- A lexeme that can be read as itself: the name of a placeholder has no closing
brace and does not start with an opening one, and other characters are no braces. -/
def Lexeme.Proper : Lexeme → Prop
  | .hole name => closing ∉ name ∧ name.head? ≠ some opening
  | .plain c => c ≠ opening ∧ c ≠ closing
  | _ => True

theorem mem_push {l m : Lexeme} {r : Reading} :
    m ∈ (r.push l).lexemes ↔ m = l ∨ m ∈ r.lexemes := List.mem_cons

/-- Every lexeme that is read is proper. -/
theorem read_proper {cs : List Char} {l : Lexeme} (member : l ∈ (read cs).lexemes) : l.Proper := by
  fun_induction read cs with
  | case1 => cases member
  | case2 c cs doubled ih =>
      rcases mem_push.mp member with rfl | member
      · trivial
      · exact ih member
  | case3 cs none single => cases member
  | case4 cs name rest split shorter single ih =>
      obtain ⟨rfl, free⟩ := splitHole_eq_some split
      rcases mem_push.mp member with rfl | member
      · refine ⟨free, fun starts => single ⟨rfl, ?_⟩⟩
        rw [List.head?_append, starts]
        rfl
      · exact ih member
  | case5 c cs notOpening notHole doubled ih =>
      rcases mem_push.mp member with rfl | member
      · trivial
      · exact ih member
  | case6 cs notOpening notHole single ih =>
      rcases mem_push.mp member with rfl | member
      · trivial
      · exact ih member
  | case7 c cs notOpening notHole notDoubled notClosing ih =>
      rcases mem_push.mp member with rfl | member
      · exact ⟨notHole, notClosing⟩
      · exact ih member

/-! ## Segments -/

/-- The segments of lexemes.  `text` holds the characters since the last
placeholder, last first, and `offset` is the bytes before the lexemes. -/
def segmentsFrom (text : List Char) (offset : Nat) : List Lexeme → List Segment
  | [] => withText text []
  | .hole name :: ls =>
      withText text (.placeholder (String.ofList name) offset ::
        segmentsFrom [] (offset + byteLength (Lexeme.hole name).written) ls)
  | .opens :: ls => segmentsFrom (opening :: text) (offset + byteLength Lexeme.opens.written) ls
  | .closes :: ls => segmentsFrom (closing :: text) (offset + byteLength Lexeme.closes.written) ls
  | .lone :: ls => segmentsFrom (closing :: text) (offset + byteLength Lexeme.lone.written) ls
  | .plain c :: ls => segmentsFrom (c :: text) (offset + byteLength (Lexeme.plain c).written) ls

/-- What `textFrom` answers for a reading. -/
def Reading.outcome (text : List Char) (offset : Nat) (r : Reading) :
    Except TemplateError (List Segment) :=
  match r.unclosed with
  | none => .ok (segmentsFrom text offset r.lexemes)
  | some _ => .error ⟨offset + byteLength r.written, offset + byteLength r.closed⟩

theorem utf8Size_opening : opening.utf8Size = 1 := by decide

theorem utf8Size_closing : closing.utf8Size = 1 := by decide

theorem textFrom_opens (text : List Char) (offset : Nat) (cs : List Char) :
    textFrom text offset (opening :: opening :: cs)
      = textFrom (opening :: text) (offset + 2) cs := by
  rw [textFrom, if_pos rfl, if_pos rfl]

theorem textFrom_closes (text : List Char) (offset : Nat) (cs : List Char) :
    textFrom text offset (closing :: closing :: cs)
      = textFrom (closing :: text) (offset + 2) cs := by
  rw [textFrom, if_neg (by decide), if_pos rfl, if_pos rfl]

theorem textFrom_lone (text : List Char) (offset : Nat) {cs : List Char}
    (single : cs.head? ≠ some closing) :
    textFrom text offset (closing :: cs) = textFrom (closing :: text) (offset + 1) cs := by
  cases cs with
  | nil => rfl
  | cons d cs =>
      have other : d ≠ closing := fun same => single (congrArg some same)
      rw [textFrom, if_neg (by decide), if_pos rfl, if_neg other]

theorem textFrom_plain (text : List Char) (offset : Nat) {c : Char} (opens : c ≠ opening)
    (closes : c ≠ closing) (cs : List Char) :
    textFrom text offset (c :: cs) = textFrom (c :: text) (offset + c.utf8Size) cs := by
  cases cs with
  | nil => simp [textFrom, opens]
  | cons d cs => rw [textFrom, if_neg opens, if_neg closes]

theorem textFrom_hole (text : List Char) (offset : Nat) {cs : List Char}
    (single : cs.head? ≠ some opening) :
    textFrom text offset (opening :: cs) = holeFrom text offset [] (offset + 1) cs := by
  cases cs with
  | nil => rw [textFrom, if_pos rfl, holeFrom, utf8Size_opening]
  | cons d cs =>
      have other : d ≠ opening := fun same => single (congrArg some same)
      rw [textFrom, if_pos rfl, if_neg other]

/-- Inside a placeholder everything up to the closing brace is its name. -/
theorem holeFrom_eq (text : List Char) (openedAt : Nat) (name : List Char) (offset : Nat)
    (cs : List Char) :
    holeFrom text openedAt name offset cs =
      match splitHole cs with
      | none => .error ⟨offset + byteLength cs, openedAt⟩
      | some (rest, behind) => do
          let segments ← textFrom [] (offset + byteLength rest + 1) behind
          return withText text
            (.placeholder (String.ofList (name.reverse ++ rest)) openedAt :: segments) := by
  induction cs generalizing name offset with
  | nil => simp [holeFrom, splitHole, byteLength]
  | cons c cs ih =>
      by_cases closes : c = closing
      · subst closes
        simp [holeFrom, splitHole, byteLength]
      · rw [holeFrom, if_neg closes, ih, splitHole, if_neg closes]
        cases splitHole cs with
        | none => simp [byteLength, Nat.add_assoc]
        | some found =>
            obtain ⟨rest, behind⟩ := found
            simp [byteLength, Nat.add_assoc]

theorem outcome_push_char {l : Lexeme} {c : Char} (stands : l.char? = some c) (text : List Char)
    (offset : Nat) (r : Reading) :
    (r.push l).outcome text offset
      = r.outcome (c :: text) (offset + byteLength l.written) := by
  rcases r with ⟨ls, _ | rest⟩
  · cases l <;> cases stands <;> rfl
  · simp [Reading.outcome, Reading.push, Reading.written, Reading.closed, byteLength_append,
      Nat.add_assoc]

theorem outcome_push_hole (name text : List Char) (offset : Nat) (r : Reading) :
    (r.push (.hole name)).outcome text offset = do
      let segments ← r.outcome [] (offset + byteLength (Lexeme.hole name).written)
      return withText text (.placeholder (String.ofList name) offset :: segments) := by
  rcases r with ⟨ls, _ | rest⟩
  · rfl
  · simp only [Reading.outcome, Reading.push, Reading.written, Reading.closed, byteLength_append,
      List.flatMap_cons, Nat.add_assoc]
    rfl

/-- **`textFrom` collects the lexemes of what it reads.** -/
theorem textFrom_eq (text : List Char) (offset : Nat) (cs : List Char) :
    textFrom text offset cs = (read cs).outcome text offset := by
  fun_induction read cs generalizing text offset with
  | case1 => rfl
  | case2 c cs doubled ih =>
      obtain ⟨rfl, next⟩ := doubled
      obtain ⟨rest, rfl⟩ := List.head?_eq_some_iff.mp next
      rw [textFrom_opens, outcome_push_char rfl]
      exact ih _ _
  | case3 cs none single =>
      have single : cs.head? ≠ some opening := fun next => single ⟨rfl, next⟩
      rw [textFrom_hole _ _ single, holeFrom_eq, none]
      simp [Reading.outcome, Reading.written, Reading.closed, byteLength, utf8Size_opening,
        Nat.add_assoc]
  | case4 cs name rest split shorter single ih =>
      have single : cs.head? ≠ some opening := fun next => single ⟨rfl, next⟩
      rw [textFrom_hole _ _ single, holeFrom_eq, split, outcome_push_hole, ← ih]
      simp [Lexeme.written, byteLength, byteLength_append, utf8Size_opening, utf8Size_closing,
        Nat.add_assoc, Nat.add_comm 1]
  | case5 c cs notOpening notHole doubled ih =>
      obtain ⟨rfl, next⟩ := doubled
      obtain ⟨rest, rfl⟩ := List.head?_eq_some_iff.mp next
      rw [textFrom_closes, outcome_push_char rfl]
      exact ih _ _
  | case6 cs notOpening notHole single ih =>
      have single : cs.head? ≠ some closing := fun next => single ⟨rfl, next⟩
      rw [textFrom_lone _ _ single, outcome_push_char rfl]
      exact ih _ _
  | case7 c cs notOpening notHole notDoubled notClosing ih =>
      rw [textFrom_plain _ _ notHole notClosing, outcome_push_char rfl]
      exact ih _ _

/-- Segments, or one empty text where there is none. -/
def orEmpty : List Segment → List Segment
  | [] => [.literal ""]
  | segments => segments

/-- **`parse` fails exactly where a placeholder is never closed, and else answers
the segments of the lexemes.** -/
theorem parse_eq (template : String) :
    parse template = ((read template.toList).outcome [] 0).map orEmpty := by
  rw [parse, textFrom_eq]
  cases (read template.toList).outcome [] 0 with
  | error e => rfl
  | ok segments => cases segments <;> rfl

theorem parse_of_closed {template : String} (closed : (read template.toList).unclosed = none) :
    parse template = .ok (orEmpty (segmentsFrom [] 0 (read template.toList).lexemes)) := by
  rw [parse_eq, Reading.outcome, closed]
  rfl

theorem closed_of_parse {template : String} {segments : List Segment}
    (parsed : parse template = .ok segments) : (read template.toList).unclosed = none := by
  rw [parse_eq, Reading.outcome] at parsed
  cases unclosed : (read template.toList).unclosed with
  | none => rfl
  | some rest =>
      rw [unclosed] at parsed
      cases parsed

/-! ## Placeholders -/

def Lexeme.name? : Lexeme → Option String
  | .hole name => some (String.ofList name)
  | _ => none

/-- The names of the placeholders of a template, up to one that is never closed. -/
def holes (template : String) : List String :=
  (read template.toList).lexemes.filterMap Lexeme.name?

theorem names_withText (text : List Char) (segments : List Segment) :
    names (withText text segments) = names segments := by
  cases text <;> rfl

theorem names_segmentsFrom (text : List Char) (offset : Nat) (ls : List Lexeme) :
    names (segmentsFrom text offset ls) = ls.filterMap Lexeme.name? := by
  induction ls generalizing text offset with
  | nil => exact names_withText text []
  | cons l ls ih =>
      cases l with
      | hole name =>
          rw [segmentsFrom, names_withText]
          exact congrArg (String.ofList name :: ·) (ih _ _)
      | _ => exact ih _ _

theorem names_orEmpty (segments : List Segment) : names (orEmpty segments) = names segments := by
  cases segments <;> rfl

theorem names_of_parse {template : String} {segments : List Segment}
    (parsed : parse template = .ok segments) : names segments = holes template := by
  rw [parse_of_closed (closed_of_parse parsed)] at parsed
  cases parsed
  rw [names_orEmpty, names_segmentsFrom, holes]

end LogInterface.Template
