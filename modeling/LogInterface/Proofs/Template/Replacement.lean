/-
# Proofs.Template.Replacement -- one placeholder of a template and another in its place

A placeholder is not found by looking for its braces: whether a brace opens one depends on all that
stands before it.  `HasHole` says where one stands without reading the template from left to right:
behind a front that is a template by itself.  Every name that `holes` lists comes from such a place
(`exists_hasHole`), and as the front is read by itself, and what follows a closing brace is too,
another name can be put there without changing what is read before and behind it
(`HasHole.replaced`).
-/
import LogInterface.Proofs.Template.Unterminated

namespace LogInterface.Template

open LogInterface.Text

set_option autoImplicit false

/-- A template with a placeholder between two others. -/
def withHole (front name rest : String) : String := front ++ "\x7b" ++ name ++ "\x7d" ++ rest

/-- A placeholder stands in the template behind a front that can be parsed. -/
structure HasHole (template front name rest : String) : Prop where
  split : template = withHole front name rest
  parses : ∃ segments, parse front = .ok segments
  named : IsHoleName name

theorem toList_withHole (front name rest : String) :
    (withHole front name rest).toList
      = front.toList ++ opening :: (name.toList ++ closing :: rest.toList) := by
  simp [withHole, opening, closing]

namespace HasHole

variable {template front name rest : String}

/-- The placeholder is read as one, and the rest of the template as if it stood alone. -/
theorem reading (hole : HasHole template front name rest) :
    read template.toList
      = ⟨(read front.toList).lexemes ++ .hole name.toList :: (read rest.toList).lexemes,
        (read rest.toList).unclosed⟩ := by
  obtain ⟨segments, parsed⟩ := hole.parses
  have apart : (opening :: (name.toList ++ closing :: rest.toList)).head? ≠ some closing := by
    rw [List.head?_cons]
    decide
  rw [hole.split, toList_withHole, read_append (closed_of_parse parsed) apart,
    read_hole hole.named.1 hole.named.2]
  rfl

theorem holes_eq (hole : HasHole template front name rest) :
    holes template = holes front ++ name :: holes rest := by
  have own : (Lexeme.hole name.toList).name? = some name :=
    congrArg some String.ofList_toList
  rw [holes, hole.reading, List.filterMap_append, List.filterMap_cons_some own]
  rfl

/-- Another name can be written in the same place. -/
theorem replaced (hole : HasHole template front name rest) {other : String}
    (named : IsHoleName other) : HasHole (withHole front other rest) front other rest :=
  ⟨rfl, hole.parses, named⟩

/-- The rest decides whether the template can be parsed, whatever the name is. -/
theorem parse_iff (hole : HasHole template front name rest) :
    (∃ segments, parse template = .ok segments) ↔ ∃ segments, parse rest = .ok segments := by
  have closed (text : String) :
      (∃ segments, parse text = .ok segments) ↔ (read text.toList).unclosed = none :=
    ⟨fun ⟨_, parsed⟩ => closed_of_parse parsed, fun closed => ⟨_, parse_of_closed closed⟩⟩
  rw [closed, closed, hole.reading]

end HasHole

/-- **Every placeholder has its place.**  Between the placeholders before it and those behind it
the template can be cut at its braces. -/
theorem exists_hasHole {template name : String} {segments : List Segment}
    (parsed : parse template = .ok segments) {before after : List String}
    (listed : holes template = before ++ name :: after) :
    ∃ front rest, HasHole template front name rest ∧ holes front = before ∧
      holes rest = after := by
  have closed := closed_of_parse parsed
  obtain ⟨ls, behind, cut, ofFront, ofRest⟩ := List.filterMap_eq_append_iff.mp listed
  obtain ⟨plain, l, rs, rfl, noName, isName, -⟩ := List.filterMap_eq_cons_iff.mp ofRest
  obtain ⟨inner, rfl⟩ : ∃ inner, l = .hole inner := by cases l <;> simp_all [Lexeme.name?]
  have same : String.ofList inner = name := Option.some.inj isName
  -- What is in front of the placeholder: all lexemes that were read before it.
  have whole : (read template.toList).lexemes = (ls ++ plain) ++ .hole inner :: rs := by
    rw [cut, List.append_assoc]
  have alone := read_front whole
  have written : template.toList = (ls ++ plain).flatMap Lexeme.written
      ++ opening :: (inner ++ closing :: rs.flatMap Lexeme.written) := by
    rw [← closed_eq_self closed, Reading.closed, whole, List.flatMap_append, List.flatMap_cons]
    simp [Lexeme.written]
  have member : Lexeme.hole inner ∈ (read template.toList).lexemes := by
    rw [whole]
    simp
  let front := String.ofList ((ls ++ plain).flatMap Lexeme.written)
  let rest := String.ofList (rs.flatMap Lexeme.written)
  have hole : HasHole template front name rest :=
    { split := by
        rw [← String.toList_inj, toList_withHole, written, ← same]
        simp only [front, rest, String.toList_ofList]
      parses := ⟨_, parse_of_closed (by rw [String.toList_ofList, alone])⟩
      named := by
        rw [← same, IsHoleName, String.toList_ofList]
        exact read_proper member }
  have fronts : holes front = before := by
    rw [holes, String.toList_ofList, alone, List.filterMap_append, ofFront,
      List.filterMap_eq_nil_iff.mpr noName, List.append_nil]
  refine ⟨front, rest, hole, fronts, ?_⟩
  have lists := hole.holes_eq.symm.trans listed
  rw [fronts] at lists
  exact (List.cons.inj (List.append_cancel_left lists)).2

end LogInterface.Template
