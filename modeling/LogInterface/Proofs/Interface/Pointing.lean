/-
# Proofs.Interface.Pointing -- diagnostics point at their brace

Two diagnostics show a template and point at an opening brace in it: the one about a placeholder
that is never closed, and the one about a placeholder that no parameter has the name of.  Both
know their brace as an offset in bytes.

The offset of a brace is the length of the lexemes before it, so the text before the brace is
what they are written as (`Template.firstAt_of_find?`), and from there on an excerpt points at it.
An unknown placeholder is reported once for its name.  Which of its occurrences is named is
decided after those that are bound were left out, but these have other names, so it is the first
one in the template (`LogMethod.find?_of_mem_unknownHoles`).
-/
import LogInterface.Proofs.Interface.Report
import LogInterface.Proofs.Text.Excerpt

namespace LogInterface

open LogInterface.Text

set_option autoImplicit false

/-! ## Braces in a template -/

namespace Template

/-- The placeholders of segments, with the offsets of their braces. -/
def located (segments : List Segment) : List (String × Nat) :=
  segments.filterMap fun s =>
    match s with
    | .placeholder name position => some (name, position)
    | .literal _ => none

theorem located_withText (text : List Char) (segments : List Segment) :
    located (withText text segments) = located segments := by
  cases text <;> rfl

theorem located_orEmpty (segments : List Segment) : located (orEmpty segments) = located segments := by
  cases segments <;> rfl

/-- The brace between `before` and `after` opens the first placeholder of a name. -/
structure FirstHole (template name : String) (before after : List Char) : Prop where
  place : template.toList = before ++ opening :: after
  /-- The lexemes before the brace have no placeholder of the name. -/
  first : ∃ ls rest, (read template.toList).lexemes = ls ++ .hole name.toList :: rest ∧
    .hole name.toList ∉ ls ∧ before = ls.flatMap Lexeme.written

/-- The brace between `before` and `after` opens the placeholder that is never closed. -/
structure OpenHole (template : String) (before after : List Char) : Prop where
  place : template.toList = before ++ opening :: after
  reading : (read template.toList).closed = before ∧ (read template.toList).unclosed = some after

/-- Among lexemes that start at `offset`, the first placeholder of a name is at `position`. -/
def FirstAt (ls : List Lexeme) (name : String) (offset position : Nat) : Prop :=
  ∃ before after, ls = before ++ .hole name.toList :: after ∧ .hole name.toList ∉ before ∧
    position = offset + byteLength (before.flatMap Lexeme.written)

theorem FirstAt.push {l : Lexeme} {ls : List Lexeme} {name : String} {offset position : Nat}
    (other : .hole name.toList ≠ l)
    (behind : FirstAt ls name (offset + byteLength l.written) position) :
    FirstAt (l :: ls) name offset position := by
  obtain ⟨before, after, rfl, fresh, rfl⟩ := behind
  refine ⟨l :: before, after, rfl, ?_, ?_⟩
  · rw [List.mem_cons, not_or]
    exact ⟨other, fresh⟩
  · rw [List.flatMap_cons, byteLength_append, Nat.add_assoc]

/-- The offset of a placeholder is the length of what stands before it. -/
theorem firstAt_of_find? {text : List Char} {offset : Nat} {ls : List Lexeme} {name : String}
    {position : Nat}
    (found : (located (segmentsFrom text offset ls)).find? (·.1 == name) = some (name, position)) :
    FirstAt ls name offset position := by
  induction ls generalizing text offset with
  | nil =>
      rw [segmentsFrom, located_withText] at found
      cases found
  | cons l ls ih =>
      cases l with
      | hole inner =>
          have first : located (segmentsFrom text offset (.hole inner :: ls))
              = (String.ofList inner, offset)
                :: located (segmentsFrom [] (offset + byteLength (Lexeme.hole inner).written) ls) :=
            located_withText text _
          rw [first] at found
          by_cases same : String.ofList inner = name
          · rw [List.find?_cons_of_pos (by simpa using same)] at found
            cases found
            exact ⟨[], ls, by rw [String.toList_ofList]; rfl, List.not_mem_nil, rfl⟩
          · rw [List.find?_cons_of_neg (by simpa using same)] at found
            refine (ih found).push ?_
            rintro ⟨⟩
            exact same String.ofList_toList
      | _ => exact (ih found).push Lexeme.noConfusion

/-- The first placeholder of a name in the segments of a template is at the brace of the first
one in the template. -/
theorem firstHole_of_find? {template name : String} {segments : List Segment} {position : Nat}
    (parsed : parse template = .ok segments)
    (found : (located segments).find? (·.1 == name) = some (name, position)) :
    ∃ before after, FirstHole template name before after ∧ byteLength before = position := by
  have closed := closed_of_parse parsed
  rw [parse_of_closed closed] at parsed
  cases parsed
  rw [located_orEmpty] at found
  obtain ⟨ls, rest, lexemes, fresh, offset⟩ := firstAt_of_find? found
  have written := read_written template.toList
  rw [Reading.written, closed, Reading.closed, lexemes, List.append_nil, List.flatMap_append,
    List.flatMap_cons] at written
  refine ⟨ls.flatMap Lexeme.written, name.toList ++ [closing] ++ rest.flatMap Lexeme.written,
    ⟨?_, ls, rest, lexemes, fresh, rfl⟩, ?_⟩
  · rw [← written]
    rfl
  · rw [offset, Nat.zero_add]

theorem openHole_of_parse {template : String} {e : TemplateError}
    (failed : parse template = .error e) :
    ∃ before after, OpenHole template before after ∧ byteLength before = e.openedAt := by
  have written := read_written template.toList
  rw [parse_eq, Reading.outcome] at failed
  rw [Reading.written] at written
  cases unclosed : (read template.toList).unclosed with
  | none =>
      rw [unclosed] at failed
      cases failed
  | some rest =>
      rw [unclosed] at failed written
      cases failed
      exact ⟨_, rest, ⟨written.symm, rfl, unclosed⟩, (Nat.zero_add _).symm⟩

end Template

/-- A report about the offset of an opening brace points at it. -/
theorem atOffset_pointsAt {source : String} {before after : List Char}
    (place : source.toList = before ++ Template.opening :: after) {r : ErrorReport}
    (shown : r.source = source)
    (located : r.location = Location.ofOffset source (byteLength before)) :
    PointsAt r.excerpt before Template.opening after := by
  refine excerpt_pointsAt (by rw [shown, place]) ?_ (by decide) (by decide) (by decide)
  rw [located, ofOffset_place place]

/-! ## Unknown placeholders -/

namespace LogMethod

/-- An unknown placeholder is the first of its name among all placeholders: the bound ones have
other names. -/
theorem find?_of_mem_unknownHoles {m : Method} {args : MessageArguments} {segments : List Segment}
    {hole : String × Nat} (member : hole ∈ (bind m args segments).unknownHoles) :
    (Template.located segments).find? (·.1 == hole.1) = some hole := by
  rw [unknownHoles, unboundHoles rfl, firstOfName_eq] at member
  obtain ⟨-, found⟩ := mem_firsts.mp member
  have unbound := (List.mem_filter.mp (List.mem_of_find?_eq_some found)).2
  rw [List.find?_filter] at found
  rw [← found]
  refine congrArg (List.find? · _) (funext fun other => ?_)
  by_cases same : other.1 = hole.1
  · simp [same, unbound]
  · simp [same]

end LogMethod

/-- The rules report an unknown placeholder for the placeholders of methods, and for nothing
else. -/
theorem unknownViolation_of_validate {d : Interface} {v : Violation} (member : v ∈ d.validate)
    (kind : v.kind = .unknownPlaceholder) :
    ∃ l ∈ d.methods, ∃ hole ∈ l.unknownHoles, v = (l.unknownViolation hole).of d.name := by
  obtain ⟨u, rfl, origin⟩ := exists_of_mem_validate member
  have topic : u.topic = .placeholder := by rw [Violation.topic, show u.kind = _ from kind]
  -- No rule but that for placeholders has violations on this topic.
  rcases origin with shape | ⟨l, isMethod, broken⟩ | ⟨id, twice⟩
  · rcases topic_of_mem_shapeViolations shape with other | other <;> cases topic.symm.trans other
  · rcases List.mem_append.mp broken with signature | unknown
    · cases topic.symm.trans (signatureViolations_topic _ _ _ _ u signature)
    · obtain ⟨hole, isHole, rfl⟩ := List.mem_map.mp unknown
      exact ⟨l, isMethod, hole, isHole, rfl⟩
  · cases topic.symm.trans (duplicateViolations_topic d.methods id u twice)

/-! ## Diagnostics -/

/-- The violation is about a placeholder of a method, and its detail points at the brace of the
first placeholder of the name. -/
def Violation.PointsInto (v : Violation) (m : Method) : Prop :=
  ∃ args segments name detail before after, m.Carries args segments ∧
    v.method = some m.signature.name.text ∧ v.subject = some name ∧ v.detail = some detail ∧
    Template.FirstHole args.message.value name before after ∧
    PointsAt detail before Template.opening after

theorem pointsInto_of_validate {t : TraitDecl} {cx : Context} {v : Violation}
    (member : v ∈ (t.describe cx).1.validate) (kind : v.kind = .unknownPlaceholder) :
    ∃ m ∈ t.methods, v.PointsInto m := by
  obtain ⟨l, isMethod, ⟨name, position⟩, unknown, rfl⟩ := unknownViolation_of_validate member kind
  obtain ⟨m, isDeclared, described⟩ := exists_of_mem_describeItems isMethod
  obtain ⟨args, segments, carries, rfl⟩ := describe_ok_iff.mp described
  obtain ⟨before, after, first, offset⟩ := Template.firstHole_of_find? carries.parsed
    (LogMethod.find?_of_mem_unknownHoles unknown)
  refine ⟨m, isDeclared, args, segments, name, _, before, after, carries, rfl, rfl, rfl, first, ?_⟩
  refine atOffset_pointsAt first.place rfl ?_
  rw [offset]
  rfl

/-- **Diagnostics about a template point at the right brace**: at the one that is never closed,
or at the first placeholder of the unknown name. -/
theorem diagnostics_point :
    (∀ (template : String) (e : TemplateError), Template.parse template = .error e →
      ∃ before after, Template.OpenHole template before after ∧
        byteLength before = e.openedAt ∧
        PointsAt (e.snippet template) before Template.opening after) ∧
    ∀ (t : TraitDecl) (cx : Context) (v : Violation), v ∈ (t.describe cx).1.validate →
      v.kind = .unknownPlaceholder → ∃ m ∈ t.methods, v.PointsInto m := by
  refine ⟨fun template e failed => ?_, fun t cx v => pointsInto_of_validate⟩
  obtain ⟨before, after, isOpen, offset⟩ := Template.openHole_of_parse failed
  refine ⟨before, after, isOpen, offset, atOffset_pointsAt isOpen.place rfl ?_⟩
  rw [offset]
  rfl

/-- A template whose second line has a placeholder that is never closed, behind a tab. -/
def Sample.unclosed : String := "\x7bhost\x7d is open\n\x7b\x7b\t\x7bport"

/-- A trait whose message has an unknown placeholder, twice and behind a known one. -/
def Sample.misspelt : TraitDecl :=
  { interface with
    items :=
      [.method (method "opened" (message "1" "\x7bhost\x7d\r\n\t\x7bprot\x7d, \x7bprot\x7d")
        [parameter "host" "Host", parameter "port" "Port"])] }

theorem diagnostics_point_sample :
    Template.parse Sample.unclosed = .error ⟨23, 18⟩ ∧
      (∃ before after, Template.OpenHole Sample.unclosed before after ∧
        byteLength before = 18 ∧
        PointsAt (TemplateError.snippet ⟨23, 18⟩ Sample.unclosed) before Template.opening after) ∧
      ∃ v ∈ (Sample.misspelt.describe Sample.context).1.validate, v.kind = .unknownPlaceholder ∧
        ∃ m ∈ Sample.misspelt.methods, v.PointsInto m := by
  have failed : Template.parse Sample.unclosed = .error ⟨23, 18⟩ := by decide +kernel
  have reported : (Sample.misspelt.describe Sample.context).1.validate.any
      (·.kind = .unknownPlaceholder) := by decide +kernel
  obtain ⟨v, member, kind⟩ := List.any_eq_true.mp reported
  have kind := of_decide_eq_true kind
  exact ⟨failed, diagnostics_point.1 _ _ failed, v, member, kind,
    diagnostics_point.2 _ _ v member kind⟩

example : TemplateError.snippet ⟨23, 18⟩ Sample.unclosed
    = "  |\n2 | \x7b\x7b    \x7bport\n  |       ^ placeholder opened here\n" := by
  decide +kernel

end LogInterface
