/-
# Proofs.Template.Parts -- segments without their places

A template is made of parts, texts and placeholders.  `Part.before` puts one part
in front of others and joins texts that meet, so the canonical form of parts is a
fold, and a text may as well come character by character (`foldr_chars`).

`map_part_of_parse` says what `parse` answers, apart from places: the canonical
form of the lexemes of the template.  Its proof walks along the lexemes, with the
text that is still open as one more part in front (`map_part_segmentsFrom`).
-/
import LogInterface.Proofs.Template.Reading
import Mathlib.Data.List.Chain

namespace LogInterface

open LogInterface.Text

set_option autoImplicit false

/-! ## Parts -/

namespace Template

/-- A part of a template. -/
inductive Part where
  | text (s : String)
  | hole (name : String)
  deriving DecidableEq, Repr

/-- Names that a placeholder can be written with. -/
def IsHoleName (name : String) : Prop :=
  closing ∉ name.toList ∧ name.toList.head? ≠ some opening

instance (name : String) : Decidable (IsHoleName name) := by
  unfold IsHoleName
  exact inferInstance

/-- A part that can be written: the name of a placeholder has to be one. -/
def Part.Named : Part → Prop
  | .text _ => True
  | .hole name => IsHoleName name

instance : DecidablePred Part.Named
  | .text _ => isTrue trivial
  | .hole name => inferInstanceAs (Decidable (IsHoleName name))

/-- A part in front of others; a text joins a text, and an empty one vanishes. -/
def Part.before : Part → List Part → List Part
  | .text s, .text t :: parts => .text (s ++ t) :: parts
  | .text s, parts => if s = "" then parts else .text s :: parts
  | .hole name, parts => .hole name :: parts

/-- Parts with texts joined and empty texts dropped. -/
def merged (parts : List Part) : List Part := parts.foldr Part.before []

/-- The canonical form of parts: one empty text where nothing remains. -/
def canonical (parts : List Part) : List Part :=
  match merged parts with
  | [] => [.text ""]
  | rest => rest

end Template

open Template

def Segment.part : Segment → Part
  | .literal s => .text s
  | .placeholder name _ => .hole name

namespace Template

/-- Two parts of which one is a placeholder. -/
def Part.Apart (p q : Part) : Prop := (∃ name, p = .hole name) ∨ ∃ name, q = .hole name

/-- What canonical parts look like. -/
structure Canonical (parts : List Part) : Prop where
  nonempty : parts ≠ []
  /-- No two texts side by side. -/
  apart : parts.IsChain Part.Apart
  /-- No empty text, unless there is nothing else. -/
  filled : .text "" ∈ parts → parts = [.text ""]
  named : ∀ p ∈ parts, p.Named

def Lexeme.part : Lexeme → Part
  | .opens => .text (String.singleton opening)
  | .closes => .text (String.singleton closing)
  | .lone => .text (String.singleton closing)
  | .hole name => .hole (String.ofList name)
  | .plain c => .text (String.singleton c)

/-! ## Joining texts -/

theorem before_empty (parts : List Part) : (Part.text "").before parts = parts := by
  match parts with
  | .text u :: rest => simp [Part.before]
  | [] => rfl
  | .hole name :: rest => rfl

theorem before_of_apart {s : String} {parts : List Part} (filled : s ≠ "")
    (apart : ∀ t rest, parts ≠ .text t :: rest) :
    (Part.text s).before parts = .text s :: parts := by
  match parts with
  | .text t :: rest => exact absurd rfl (apart t rest)
  | [] => exact if_neg filled
  | .hole name :: rest => exact if_neg filled

/-- A part in front of others vanishes, stands there itself, or joins the first of them. -/
theorem before_cases (p : Part) (parts : List Part) :
    (p = .text "" ∧ p.before parts = parts) ∨
      (p ≠ .text "" ∧ (∀ t rest, parts = .text t :: rest → ∃ name, p = .hole name) ∧
        p.before parts = p :: parts) ∨
      ∃ s t rest, p = .text s ∧ parts = .text t :: rest ∧
        p.before parts = .text (s ++ t) :: rest := by
  match p, parts with
  | .hole name, parts => exact .inr (.inl ⟨by simp, fun _ _ _ => ⟨name, rfl⟩, rfl⟩)
  | .text s, .text t :: rest => exact .inr (.inr ⟨s, t, rest, rfl, rfl, rfl⟩)
  | .text s, [] =>
      by_cases empty : s = ""
      · exact .inl ⟨by rw [empty], by rw [empty, before_empty]⟩
      · exact .inr (.inl ⟨by simp [empty], by simp, before_of_apart empty (by simp)⟩)
  | .text s, .hole name :: rest =>
      by_cases empty : s = ""
      · exact .inl ⟨by rw [empty], by rw [empty, before_empty]⟩
      · exact .inr (.inl ⟨by simp [empty], by simp, before_of_apart empty (by simp)⟩)

theorem before_before (s t : String) (parts : List Part) :
    (Part.text s).before ((Part.text t).before parts) = (Part.text (s ++ t)).before parts := by
  rcases before_cases (.text t) parts with ⟨empty, same⟩ | ⟨filled, apart, same⟩
    | ⟨v, u, rest, inner, rfl, same⟩
  · rw [same, Part.text.inj empty, String.append_empty]
  · have joined : (Part.text (s ++ t)).before parts = .text (s ++ t) :: parts := by
      refine before_of_apart (fun empty => filled ?_) fun u rest first => ?_
      · rw [(String.append_eq_empty_iff.mp empty).2]
      · obtain ⟨name, impossible⟩ := apart u rest first
        cases impossible
    rw [same, joined]
    rfl
  · cases inner
    rw [same]
    simp [Part.before, String.append_assoc]

/-- A text may come character by character. -/
theorem foldr_chars (cs : List Char) (parts : List Part) :
    (cs.map fun c => Part.text (String.singleton c)).foldr Part.before parts
      = (Part.text (String.ofList cs)).before parts := by
  induction cs with
  | nil => exact (before_empty parts).symm
  | cons c cs ih => rw [List.map_cons, List.foldr_cons, ih, before_before, String.ofList_cons]

/-! ## The canonical form -/

theorem named_before {p : Part} {parts : List Part} (head : p.Named)
    (tail : ∀ q ∈ parts, q.Named) : ∀ q ∈ p.before parts, q.Named := by
  rcases before_cases p parts with ⟨-, same⟩ | ⟨-, -, same⟩ | ⟨s, t, rest, rfl, rfl, same⟩
  · rw [same]
    exact tail
  · rw [same]
    exact List.forall_mem_cons.mpr ⟨head, tail⟩
  · rw [same]
    exact List.forall_mem_cons.mpr ⟨trivial, (List.forall_mem_cons.mp tail).2⟩

theorem named_merged {parts : List Part} (named : ∀ p ∈ parts, p.Named) :
    ∀ p ∈ merged parts, p.Named := by
  induction parts with
  | nil => exact named
  | cons p parts ih =>
      obtain ⟨head, tail⟩ := List.forall_mem_cons.mp named
      exact named_before head (ih tail)

theorem empty_not_mem_before {p : Part} {parts : List Part} (filled : .text "" ∉ parts) :
    .text "" ∉ p.before parts := by
  rcases before_cases p parts with ⟨-, same⟩ | ⟨other, -, same⟩ | ⟨s, t, rest, rfl, rfl, same⟩
  · rw [same]
    exact filled
  · rw [same, List.mem_cons, not_or]
    exact ⟨Ne.symm other, filled⟩
  · rw [List.mem_cons, not_or] at filled
    rw [same, List.mem_cons, not_or]
    refine ⟨fun empty => filled.1 ?_, filled.2⟩
    rw [(String.append_eq_empty_iff.mp (Part.text.inj empty).symm).2]

theorem empty_not_mem_merged (parts : List Part) : .text "" ∉ merged parts := by
  induction parts with
  | nil => exact List.not_mem_nil
  | cons p parts ih => exact empty_not_mem_before ih

theorem apart_before {p : Part} {parts : List Part} (apart : parts.IsChain Part.Apart) :
    (p.before parts).IsChain Part.Apart := by
  rcases before_cases p parts with ⟨-, same⟩ | ⟨-, holed, same⟩ | ⟨s, t, rest, rfl, rfl, same⟩
  · rw [same]
    exact apart
  · rw [same]
    refine apart.cons fun q next => ?_
    obtain ⟨rest, rfl⟩ := List.head?_eq_some_iff.mp next
    cases q with
    | text t => exact .inl (holed t rest rfl)
    | hole name => exact .inr ⟨name, rfl⟩
  · rw [List.isChain_cons] at apart
    rw [same]
    refine apart.2.cons fun q next => .inr ?_
    obtain ⟨name, impossible⟩ | second := apart.1 q next
    · cases impossible
    · exact second

theorem apart_merged (parts : List Part) : (merged parts).IsChain Part.Apart := by
  induction parts with
  | nil => exact .nil
  | cons p parts ih => exact apart_before ih

/-- The canonical form of parts with proper names is canonical. -/
theorem canonical_canonical {parts : List Part} (named : ∀ p ∈ parts, p.Named) :
    Canonical (canonical parts) := by
  rw [canonical]
  split
  · refine ⟨List.cons_ne_nil _ _, .singleton _, fun _ => rfl, fun p member => ?_⟩
    rw [List.mem_singleton.mp member]
    trivial
  · rename_i rest some
    exact ⟨some, apart_merged parts, fun member => absurd member (empty_not_mem_merged parts),
      named_merged named⟩

/-! ## Lexemes and parts -/

theorem part_of_char {l : Lexeme} {c : Char} (stands : l.char? = some c) :
    l.part = .text (String.singleton c) := by
  cases l <;> cases stands <;> rfl

theorem segmentsFrom_char {l : Lexeme} {c : Char} (stands : l.char? = some c) (text : List Char)
    (offset : Nat) (ls : List Lexeme) :
    segmentsFrom text offset (l :: ls)
      = segmentsFrom (c :: text) (offset + byteLength l.written) ls := by
  cases l <;> cases stands <;> rfl

/-- The text before a lexeme, joined with a character behind it. -/
theorem before_char (text : List Char) (c : Char) (parts : List Part) :
    (Part.text (String.ofList (c :: text).reverse)).before parts
      = (Part.text (String.ofList text.reverse)).before
          ((Part.text (String.singleton c)).before parts) := by
  rw [before_before, List.reverse_cons, String.ofList_append, String.singleton_eq_ofList]

theorem map_part_withText (text : List Char) {segments : List Segment}
    (apart : ∀ s rest, segments.map Segment.part ≠ .text s :: rest) :
    (withText text segments).map Segment.part
      = (Part.text (String.ofList text.reverse)).before (segments.map Segment.part) := by
  cases text with
  | nil => exact (before_empty _).symm
  | cons c cs =>
      rw [before_of_apart (by simp) apart]
      rfl

/-- **The segments of lexemes are their parts, with texts joined.** -/
theorem map_part_segmentsFrom (text : List Char) (offset : Nat) (ls : List Lexeme) :
    (segmentsFrom text offset ls).map Segment.part
      = (Part.text (String.ofList text.reverse)).before (merged (ls.map Lexeme.part)) := by
  induction ls generalizing text offset with
  | nil => exact map_part_withText text (by simp)
  | cons l ls ih =>
      have joined : merged ((l :: ls).map Lexeme.part)
          = l.part.before (merged (ls.map Lexeme.part)) := rfl
      cases stands : l.char? with
      | some c =>
          rw [segmentsFrom_char stands, ih, joined, part_of_char stands, before_char]
      | none =>
          obtain ⟨name, rfl⟩ : ∃ name, l = .hole name := by cases l <;> simp_all [Lexeme.char?]
          rw [segmentsFrom, map_part_withText _ (by simp [Segment.part]), List.map_cons, ih, joined,
            List.reverse_nil, String.ofList_nil, before_empty]
          rfl

/-! ## What is parsed -/

theorem map_part_orEmpty (segments : List Segment) :
    (orEmpty segments).map Segment.part =
      match segments.map Segment.part with
      | [] => [.text ""]
      | rest => rest := by
  cases segments <;> rfl

theorem map_part_of_parse {template : String} {segments : List Segment}
    (parsed : parse template = .ok segments) :
    segments.map Segment.part
      = canonical ((read template.toList).lexemes.map Lexeme.part) := by
  rw [parse_of_closed (closed_of_parse parsed)] at parsed
  cases parsed
  rw [map_part_orEmpty, map_part_segmentsFrom, List.reverse_nil, String.ofList_nil, before_empty]
  rfl

theorem named_part {l : Lexeme} (proper : l.Proper) : l.part.Named := by
  cases l with
  | hole name =>
      rw [Lexeme.part, Part.Named, IsHoleName, String.toList_ofList]
      exact proper
  | _ => trivial

theorem canonical_of_parse {template : String} {segments : List Segment}
    (parsed : parse template = .ok segments) : Canonical (segments.map Segment.part) := by
  rw [map_part_of_parse parsed]
  refine canonical_canonical fun p member => ?_
  obtain ⟨l, found, rfl⟩ := List.mem_map.mp member
  exact named_part (read_proper found)

end Template

end LogInterface
