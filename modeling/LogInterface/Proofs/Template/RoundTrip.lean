/-
# Proofs.Template.RoundTrip -- printing templates and parsing them again

`print` writes parts, with every brace of a text doubled.  Parsing what was
printed gives the parts back in their canonical form, every placeholder at the
byte offset where it was printed; printing what was parsed gives the template
back, with every lone closing brace doubled.

A printed part is read as lexemes of its own, whatever stands behind it
(`read_chars`), and lexemes that are written as they are printed come to stand in
their places (`segmentsFrom_eq_placed`).
-/
import LogInterface.Proofs.Template.Parts

namespace LogInterface.Template

open LogInterface.Text

set_option autoImplicit false

/-! ## Printing -/

def printedChar (c : Char) : List Char := if c = opening ∨ c = closing then [c, c] else [c]

def Part.chars : Part → List Char
  | .text s => s.toList.flatMap printedChar
  | .hole name => opening :: (name.toList ++ [closing])

def print (parts : List Part) : String := String.ofList (parts.flatMap Part.chars)

/-- Parts as segments behind some printed characters: every placeholder knows how
many bytes were printed before it. -/
def placed (printed : List Char) : List Part → List Segment
  | [] => []
  | .text s :: parts => .literal s :: placed (printed ++ (Part.text s).chars) parts
  | .hole name :: parts =>
      .placeholder name (String.ofList printed).utf8ByteSize ::
        placed (printed ++ (Part.hole name).chars) parts

/-- How a lexeme is written when no closing brace stands alone. -/
def Lexeme.doubled : Lexeme → List Char
  | .lone => [closing, closing]
  | l => l.written

/-- A template with every lone closing brace doubled. -/
def doubled (template : String) : String :=
  String.ofList ((read template.toList).lexemes.flatMap Lexeme.doubled)

/-- Joining texts does not change what is printed. -/
theorem chars_before (p : Part) (parts : List Part) :
    (p.before parts).flatMap Part.chars = p.chars ++ parts.flatMap Part.chars := by
  rcases before_cases p parts with ⟨rfl, same⟩ | ⟨-, -, same⟩ | ⟨s, t, rest, rfl, rfl, same⟩
  · rw [same]
    rfl
  · rw [same, List.flatMap_cons]
  · rw [same]
    simp [Part.chars]

theorem chars_merged (parts : List Part) :
    (merged parts).flatMap Part.chars = parts.flatMap Part.chars := by
  induction parts with
  | nil => rfl
  | cons p parts ih =>
      have joined : merged (p :: parts) = p.before (merged parts) := rfl
      rw [joined, chars_before, ih, List.flatMap_cons]

theorem print_canonical (parts : List Part) : print (canonical parts) = print parts := by
  rw [print, print, ← chars_merged parts, canonical]
  split
  · rename_i none
    rw [none]
    rfl
  · rfl

/-- What proper lexemes are printed as. -/
theorem chars_part {l : Lexeme} (proper : l.Proper) : l.part.chars = l.doubled := by
  cases l with
  | plain c => simp [Lexeme.part, Part.chars, printedChar, Lexeme.doubled, Lexeme.written, proper.1,
      proper.2]
  | hole name => simp [Lexeme.part, Part.chars, Lexeme.doubled, Lexeme.written]
  | _ => simp [Lexeme.part, Part.chars, printedChar, Lexeme.doubled, Lexeme.written]

/-! ## Places -/

theorem placed_withText (text printed : List Char) (segments : List Segment) {parts : List Part}
    (apart : ∀ s rest, parts ≠ .text s :: rest)
    (behind : segments = placed (printed ++ text.reverse.flatMap printedChar) parts) :
    withText text segments
      = placed printed ((Part.text (String.ofList text.reverse)).before parts) := by
  cases text with
  | nil =>
      rw [List.reverse_nil, String.ofList_nil, before_empty, behind]
      simp [withText]
  | cons c cs =>
      rw [before_of_apart (by simp) apart, placed, behind]
      simp [withText, Part.chars]

/-- **Lexemes that are written as they are printed give placed parts**: `printed`
is what was printed before the text that is still open. -/
theorem segmentsFrom_eq_placed (text printed : List Char) {ls : List Lexeme}
    (faithful : ∀ l ∈ ls, l.written = l.part.chars) :
    segmentsFrom text (byteLength (printed ++ text.reverse.flatMap printedChar)) ls
      = placed printed
          ((Part.text (String.ofList text.reverse)).before (merged (ls.map Lexeme.part))) := by
  induction ls generalizing text printed with
  | nil => exact placed_withText text printed [] (by simp [merged]) rfl
  | cons l ls ih =>
      have joined : merged ((l :: ls).map Lexeme.part)
          = l.part.before (merged (ls.map Lexeme.part)) := rfl
      have head : l.written = l.part.chars := faithful l List.mem_cons_self
      have tail : ∀ m ∈ ls, m.written = m.part.chars :=
        fun m member => faithful m (List.mem_cons_of_mem l member)
      cases stands : l.char? with
      | some c =>
          rw [segmentsFrom_char stands, joined, part_of_char stands, ← before_char,
            ← ih (c :: text) printed tail, head, part_of_char stands]
          simp [Part.chars, byteLength_append, Nat.add_assoc]
      | none =>
          obtain ⟨name, rfl⟩ : ∃ name, l = .hole name := by cases l <;> simp_all [Lexeme.char?]
          rw [segmentsFrom, joined]
          refine placed_withText text printed _ (by simp [Lexeme.part, Part.before]) ?_
          have next := ih [] (printed ++ text.reverse.flatMap printedChar
            ++ (Lexeme.hole name).part.chars) tail
          rw [List.reverse_nil, String.ofList_nil, before_empty, List.flatMap_nil, List.append_nil,
            byteLength_append, ← head] at next
          rw [next, head]
          simp only [Lexeme.part, Part.before, placed, utf8ByteSize_ofList]

/-! ## Reading what was printed -/

/-- The lexeme that a character of a text is printed as. -/
def Lexeme.ofChar (c : Char) : Lexeme :=
  if c = opening then .opens else if c = closing then .closes else .plain c

def Part.lexemes : Part → List Lexeme
  | .text s => s.toList.map Lexeme.ofChar
  | .hole name => [.hole name.toList]

theorem part_ofChar (c : Char) : (Lexeme.ofChar c).part = .text (String.singleton c) := by
  by_cases opens : c = opening
  · rw [opens]
    rfl
  · by_cases closes : c = closing
    · rw [closes]
      rfl
    · rw [Lexeme.ofChar, if_neg opens, if_neg closes]
      rfl

theorem read_printedChar (c : Char) (rest : List Char) :
    read (printedChar c ++ rest) = (read rest).push (Lexeme.ofChar c) := by
  by_cases opens : c = opening
  · rw [opens]
    exact read_opens rest
  · by_cases closes : c = closing
    · rw [closes]
      exact read_closes rest
    · rw [Lexeme.ofChar, printedChar, if_neg (not_or.mpr ⟨opens, closes⟩), if_neg opens,
        if_neg closes]
      exact read_plain opens closes rest

theorem written_ofChar (c : Char) : (Lexeme.ofChar c).written = printedChar c := by
  by_cases opens : c = opening
  · rw [opens]
    rfl
  · by_cases closes : c = closing
    · rw [closes]
      rfl
    · rw [Lexeme.ofChar, printedChar, if_neg (not_or.mpr ⟨opens, closes⟩), if_neg opens,
        if_neg closes]
      rfl

/-- A printed part is read as its lexemes, whatever stands behind it. -/
theorem read_chars {p : Part} (named : p.Named) (rest : List Char) :
    read (p.chars ++ rest) = p.lexemes.foldr Reading.push (read rest) := by
  cases p with
  | hole name =>
      have shape : (Part.hole name).chars ++ rest
          = opening :: (name.toList ++ closing :: rest) := by simp [Part.chars]
      rw [shape, read_hole named.1 named.2]
      rfl
  | text s =>
      rw [Part.chars, Part.lexemes]
      induction s.toList with
      | nil => rfl
      | cons c cs ih =>
          rw [List.flatMap_cons, List.append_assoc, read_printedChar, ih]
          rfl

theorem read_print {parts : List Part} (named : ∀ p ∈ parts, p.Named) :
    read (print parts).toList = ⟨parts.flatMap Part.lexemes, none⟩ := by
  rw [print, String.toList_ofList]
  induction parts with
  | nil => exact read_nil
  | cons p parts ih =>
      obtain ⟨head, tail⟩ := List.forall_mem_cons.mp named
      rw [List.flatMap_cons, read_chars head, ih tail, List.flatMap_cons]
      induction p.lexemes with
      | nil => rfl
      | cons l ls inner => rw [List.foldr_cons, inner]; rfl

theorem written_lexemes {p : Part} {l : Lexeme} (member : l ∈ p.lexemes) :
    l.written = l.part.chars := by
  cases p with
  | hole name =>
      cases List.mem_singleton.mp member
      simp [Lexeme.written, Lexeme.part, Part.chars]
  | text s =>
      obtain ⟨c, -, rfl⟩ := List.mem_map.mp member
      rw [written_ofChar, part_ofChar, Part.chars, String.toList_singleton, List.flatMap_singleton]

theorem merged_lexemes (parts : List Part) :
    merged ((parts.flatMap Part.lexemes).map Lexeme.part) = merged parts := by
  induction parts with
  | nil => rfl
  | cons p parts ih =>
      have joined : merged (p :: parts) = p.before (merged parts) := rfl
      rw [List.flatMap_cons, List.map_append, merged, List.foldr_append, ← merged, ih, joined]
      cases p with
      | hole name =>
          rw [Part.lexemes, List.map_cons, Lexeme.part, String.ofList_toList]
          rfl
      | text s =>
          have letters : (Part.text s).lexemes.map Lexeme.part
              = s.toList.map fun c => Part.text (String.singleton c) := by
            rw [Part.lexemes, List.map_map]
            exact List.map_congr_left fun c _ => part_ofChar c
          rw [letters, foldr_chars, String.ofList_toList]

/-- **Parsing what was printed gives the parts in canonical form, each in its place.** -/
theorem parse_print {parts : List Part} (named : ∀ p ∈ parts, p.Named) :
    parse (print parts) = .ok (placed [] (canonical parts)) := by
  have reading := read_print named
  have faithful : ∀ l ∈ parts.flatMap Part.lexemes, l.written = l.part.chars := by
    intro l member
    obtain ⟨p, -, member⟩ := List.mem_flatMap.mp member
    exact written_lexemes member
  have segments := segmentsFrom_eq_placed [] [] faithful
  rw [merged_lexemes, List.reverse_nil, String.ofList_nil, before_empty] at segments
  rw [parse_of_closed (by rw [reading]), reading]
  refine congrArg Except.ok ?_
  have start : byteLength ([] ++ [].flatMap printedChar) = 0 := rfl
  rw [start] at segments
  rw [segments, canonical]
  cases merged parts with
  | nil => rfl
  | cons p rest => cases p <;> rfl

/-! ## Printing what was parsed -/

theorem print_of_parse {template : String} {segments : List Segment}
    (parsed : parse template = .ok segments) :
    print (segments.map Segment.part) = doubled template := by
  rw [map_part_of_parse parsed, print_canonical, print, doubled, List.flatMap_map]
  exact congrArg String.ofList (List.flatMap_congr fun l member => chars_part (read_proper member))

/-- **Parsing and printing undo each other.**  What was printed is parsed to the
canonical form of its parts, each in its place; what was parsed is canonical, and
printing it doubles the lone closing braces of the template and changes nothing
else. -/
theorem parse_print_inverse :
    (∀ parts : List Part, (∀ p ∈ parts, p.Named) →
      parse (print parts) = .ok (placed [] (canonical parts))) ∧
    ∀ (template : String) (segments : List Segment), parse template = .ok segments →
      Canonical (segments.map Segment.part) ∧
        print (segments.map Segment.part) = doubled template :=
  ⟨fun _ named => parse_print named,
    fun _ _ parsed => ⟨canonical_of_parse parsed, print_of_parse parsed⟩⟩

/-- Braces next to placeholders, an empty text, an empty name, and a letter of two bytes. -/
theorem parse_print_inverse_braces :
    (parse (print [.text "é\x7b", .hole "x\x7b", .text "", .text "\x7d", .hole ""])
      = .ok [.literal "é\x7b", .placeholder "x\x7b" 4, .literal "\x7d", .placeholder "" 10]) ∧
    (parse "\x7bx\x7d\x7d" = .ok [.placeholder "x" 0, .literal "\x7d"] ∧
      print [.hole "x", .text "\x7d"] = doubled "\x7bx\x7d\x7d") := by
  have placing := parse_print_inverse.1
    [.text "é\x7b", .hole "x\x7b", .text "", .text "\x7d", .hole ""] (by decide)
  have parsed : parse "\x7bx\x7d\x7d" = .ok [.placeholder "x" 0, .literal "\x7d"] := by decide
  exact ⟨placing.trans (by decide), parsed, (parse_print_inverse.2 _ _ parsed).2⟩

end LogInterface.Template
