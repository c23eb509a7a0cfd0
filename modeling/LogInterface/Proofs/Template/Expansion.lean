/-
# Proofs.Template.Expansion -- what a template expands to

`expansion` writes a template in one pass, given texts for the placeholders: a
doubled brace is one brace, a lone closing brace and every other character stand
for themselves, and a placeholder is its text.  There is no expansion if a
placeholder is never closed or has no text.

The segments of a template expand to the same (`joined_segments`), because joining
neighbouring texts and dropping empty ones does not change what parts expand to.
-/
import LogInterface.Proofs.Template.Parts

namespace LogInterface

set_option autoImplicit false

namespace Template

/-! ## Expansion -/

def joined : List (Option String) → Option String
  | [] => some ""
  | text :: texts => text.bind fun s => (joined texts).map (s ++ ·)

/-- What a lexeme expands to, given texts for the placeholders. -/
def Lexeme.expanded (text : String → Option String) : Lexeme → Option String
  | .opens => some (String.singleton opening)
  | .closes => some (String.singleton closing)
  | .lone => some (String.singleton closing)
  | .hole name => text (String.ofList name)
  | .plain c => some (String.singleton c)

/-- The one-pass expansion of a template, given texts for the placeholders. -/
def expansion (text : String → Option String) (template : String) : Option String :=
  if (read template.toList).unclosed.isSome then none
  else joined ((read template.toList).lexemes.map (Lexeme.expanded text))

def Part.expanded (text : String → Option String) : Part → Option String
  | .text s => some s
  | .hole name => text name

theorem expanded_part (text : String → Option String) (l : Lexeme) :
    l.part.expanded text = l.expanded text := by
  cases l <;> rfl

end Template

def Segment.expanded (text : String → Option String) (s : Segment) : Option String :=
  s.part.expanded text

namespace Template

/-! ## Joining -/

theorem joined_some (s : String) (texts : List (Option String)) :
    joined (some s :: texts) = (joined texts).map (s ++ ·) := rfl

theorem joined_empty (texts : List (Option String)) : joined (some "" :: texts) = joined texts := by
  rw [joined_some]
  simp

theorem joined_map_some (texts : List String) :
    joined (texts.map some) = some (String.join texts) := by
  induction texts with
  | nil => rfl
  | cons s texts ih => rw [List.map_cons, joined_some, ih, String.join_cons, Option.map_some]

variable (text : String → Option String)

theorem joined_before (p : Part) (parts : List Part) :
    joined ((p.before parts).map (Part.expanded text))
      = joined (p.expanded text :: parts.map (Part.expanded text)) := by
  rcases before_cases p parts with ⟨rfl, same⟩ | ⟨-, -, same⟩ | ⟨s, t, rest, rfl, rfl, same⟩
  · rw [same]
    exact (joined_empty _).symm
  · rw [same]
    rfl
  · rw [same, List.map_cons, List.map_cons]
    simp only [Part.expanded, joined_some, Option.map_map]
    congr 1
    funext u
    exact String.append_assoc

theorem joined_merged (parts : List Part) :
    joined ((merged parts).map (Part.expanded text)) = joined (parts.map (Part.expanded text)) := by
  induction parts with
  | nil => rfl
  | cons p parts ih =>
      have first : merged (p :: parts) = p.before (merged parts) := rfl
      rw [first, joined_before, joined, ih]
      rfl

theorem joined_canonical (parts : List Part) :
    joined ((canonical parts).map (Part.expanded text))
      = joined (parts.map (Part.expanded text)) := by
  rw [← joined_merged text parts, canonical]
  split
  · rename_i none
    rw [none]
    exact joined_empty []
  · rfl

/-- **The segments of a template expand to its expansion.** -/
theorem joined_segments {template : String} {segments : List Segment}
    (parsed : parse template = .ok segments) :
    joined (segments.map (Segment.expanded text)) = expansion text template := by
  have closed : (read template.toList).unclosed.isSome = false := by
    rw [closed_of_parse parsed]
    rfl
  have parts : segments.map (Segment.expanded text)
      = (segments.map Segment.part).map (Part.expanded text) := List.map_map.symm
  have lexemes : ((read template.toList).lexemes.map Lexeme.part).map (Part.expanded text)
      = (read template.toList).lexemes.map (Lexeme.expanded text) := by
    rw [List.map_map]
    exact List.map_congr_left fun l _ => expanded_part text l
  rw [parts, map_part_of_parse parsed, joined_canonical, lexemes, expansion, closed]
  rfl

/-- Between doubled braces, in front of a lone one, and twice. -/
example :
    expansion (fun name => if name = "x" then some "é" else none)
        "\x7b\x7b\x7bx\x7d\x7d\x7d \x7d\x7bx\x7d"
      = some "\x7bé\x7d \x7dé" := by
  cbv

end Template

end LogInterface
