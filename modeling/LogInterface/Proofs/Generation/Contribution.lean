/-
# Proofs.Generation.Contribution -- what the items of a file contribute

`generate` walks over the items of a file once and fills several lists on the way.
`Contributes` says of one item what it adds to them, through the expansions of the
annotated traits alone, and `generate_all_or_nothing` says how the contributions of
all items make the answer:

* if any of them holds a violation, the answer is all violations in the order of
  the items and no file, whatever was accepted besides;
* if none does, every item stands in the new file at its place, and an annotated
  trait is followed by its companion.

An annotated trait inside another item is never accepted (`expand_nested`), so such
an item contributes one report for each of them.
-/
import LogInterface.Generation.Basic
import LogInterface.Proofs.Interface.Acceptance

namespace LogInterface

set_option autoImplicit false

/-! ## Annotated traits -/

def TraitDecl.annotations (t : TraitDecl) : List Attribute :=
  t.attributes.filter Attribute.isTrigger

/-- How an annotated trait is found: the first annotation gives the arguments, and
all of them count. -/
inductive TraitDecl.Found (settings : Settings) (nested : Bool) (t : TraitDecl) :
    Context → Prop where
  | annotated {first : Attribute} {others : List Attribute} :
      t.annotations = first :: others →
      Found settings nested t
        { arguments := first.arguments
          nested
          triggers := (first :: others).length
          runtime := settings.runtime }

theorem isAnnotated_eq_false {t : TraitDecl} : t.isAnnotated = false ↔ t.annotations = [] := by
  rw [TraitDecl.isAnnotated, List.any_eq_false, TraitDecl.annotations, List.filter_eq_nil_iff]

theorem found_iff {settings : Settings} {nested : Bool} {t : TraitDecl} {cx : Context} :
    t.Found settings nested cx ↔ t.isAnnotated = true ∧ cx = settings.context nested t := by
  rw [← Bool.not_eq_false, isAnnotated_eq_false, Settings.context, ← TraitDecl.annotations]
  constructor
  · rintro ⟨annotations⟩
    rw [annotations]
    exact ⟨List.cons_ne_nil _ _, by simp [Nat.add_comm]⟩
  · rintro ⟨annotated, rfl⟩
    obtain ⟨first, others, annotations⟩ := List.exists_cons_of_ne_nil annotated
    have found : t.Found settings nested _ := .annotated annotations
    rw [annotations]
    simpa [Nat.add_comm] using found

/-- A trait inside another item is no logging interface. -/
theorem expand_nested {t : TraitDecl} {cx : Context} (nested : cx.nested = true) :
    ∃ r, r ≠ [] ∧ expand t cx = .error r := by
  rw [expand_error_iff, expand_ok_iff_isLogging]
  intro logging
  exact Bool.noConfusion (nested.symm.trans logging.unnested)

/-! ## Contributions -/

/-- The annotated traits inside an item, in the order of reading. -/
def Tree.annotatedTraits (item : Tree) : List TraitDecl :=
  item.declaredTraits.filter TraitDecl.isAnnotated

/-- What one item of a file adds to the answer. -/
inductive Contribution where
  /-- An annotated trait that was accepted. -/
  | interface (t : TraitDecl) (e : Expansion)
  /-- Everything that is wrong with an annotated trait. -/
  | rejected (r : Report)
  /-- An item that stays, and everything that is wrong with each annotated trait inside. -/
  | kept (item : Tree) (inside : List Report)

namespace Contribution

def violations : Contribution → Report
  | interface _ _ => []
  | rejected r => r
  | kept _ inside => inside.flatten

def pairs : Contribution → List Generation.Pair
  | interface t e => [⟨t.name, e.companion.name⟩]
  | _ => []

def notes : Contribution → List Note
  | interface _ e => e.notes
  | _ => []

/-- What stands in the new file: an annotated trait loses the generator's attributes,
and its companion follows. -/
def tokens : Contribution → List Token
  | interface t e => t.stripped.tokens ++ e.companion.tokens
  | rejected _ => []
  | kept item _ => item.tokens

end Contribution

/-- What an item of a file contributes.  An annotated trait contributes its expansion,
any other item itself and the expansions of the annotated traits inside. -/
inductive Contributes (settings : Settings) : Tree → Contribution → Prop where
  | accepted {t : TraitDecl} {cx : Context} {e : Expansion} :
      t.Found settings false cx → expand t cx = .ok e →
      Contributes settings (.trait t) (.interface t e)
  | rejected {t : TraitDecl} {cx : Context} {r : Report} :
      t.Found settings false cx → expand t cx = .error r →
      Contributes settings (.trait t) (.rejected r)
  | kept {item : Tree} {inside : List Report} :
      (∀ t, item = .trait t → t.annotations = []) →
      List.Forall₂ (fun t r => ∃ cx, t.Found settings true cx ∧ expand t cx = .error r)
        item.annotatedTraits inside →
      Contributes settings item (.kept item inside)

/-- What becomes of an item is what it contributes. -/
structure Replacement.Shows (c : Contribution) (x : Replacement) : Prop where
  tokens : x.tokens = c.tokens
  interfaces : x.interfaces = c.pairs
  notes : x.notes = c.notes
  report : x.report = c.violations

/-- The report of an examination is what the expansion answers. -/
theorem expand_of_report {t : TraitDecl} {cx : Context} (found : (t.examine cx).report ≠ []) :
    expand t cx = .error (t.examine cx).report := by
  rw [expand, Examined.expansion, if_neg (by simpa using found)]

theorem expand_of_silent {t : TraitDecl} {cx : Context} (silent : (t.examine cx).report = []) :
    ∃ e, expand t cx = .ok e ∧ e.declaration = t.stripped := by
  rw [expand, Examined.expansion, if_pos (by simpa using silent)]
  exact ⟨_, rfl, rfl⟩

/-- An annotated trait at the top of a file contributes its expansion. -/
theorem replacement_trait {settings : Settings} {t : TraitDecl} (annotated : t.isAnnotated = true) :
    ∃ c, Contributes settings (.trait t) c ∧ (t.replacement settings).Shows c := by
  have found : t.Found settings false (settings.context false t) :=
    found_iff.mpr ⟨annotated, rfl⟩
  by_cases silent : (t.examine (settings.context false t)).report = []
  · obtain ⟨e, accepted, declaration⟩ := expand_of_silent silent
    refine ⟨.interface t e, .accepted found accepted, ?_⟩
    rw [expand] at accepted
    simp only [TraitDecl.replacement, accepted]
    exact ⟨by rw [Contribution.tokens, ← declaration]; rfl, rfl, rfl, rfl⟩
  · have rejected := expand_of_report silent
    refine ⟨.rejected _, .rejected found rejected, ?_⟩
    rw [expand] at rejected
    simp only [TraitDecl.replacement, rejected]
    exact ⟨rfl, rfl, rfl, rfl⟩

/-- Any other item contributes itself and a report for each annotated trait inside. -/
theorem replacement_item {settings : Settings} {item : Tree}
    (unannotated : ∀ t, item = .trait t → t.annotations = []) :
    ∃ c, Contributes settings item c ∧ (item.replacement settings).Shows c := by
  refine ⟨.kept item (item.annotatedTraits.map fun t =>
    (t.examine (settings.context true t)).report), .kept unannotated ?_, rfl, rfl, rfl, ?_⟩
  · rw [List.forall₂_map_right_iff, List.forall₂_same]
    intro t member
    refine ⟨_, found_iff.mpr ⟨(List.mem_filter.mp member).2, rfl⟩, ?_⟩
    obtain ⟨r, -, rejected⟩ :
        ∃ r, r ≠ [] ∧ expand t (settings.context true t) = .error r := expand_nested rfl
    refine expand_of_report fun silent => ?_
    obtain ⟨e, accepted, -⟩ := expand_of_silent silent
    cases accepted.symm.trans rejected
  · rw [Contribution.violations, ← List.flatMap_def]
    exact List.flatMap_map _ _ _

theorem contributes_replaceItem (settings : Settings) (item : Tree) :
    ∃ c, Contributes settings item c ∧ (replaceItem settings item).Shows c := by
  by_cases annotated : ∃ t, item = .trait t ∧ t.isAnnotated = true
  · obtain ⟨t, rfl, annotated⟩ := annotated
    rw [replaceItem, if_pos annotated]
    exact replacement_trait annotated
  · have unannotated : ∀ t, item = .trait t → t.annotations = [] := fun t same =>
      isAnnotated_eq_false.mp (Bool.eq_false_iff.mpr fun yes => annotated ⟨t, same, yes⟩)
    have other : replaceItem settings item = item.replacement settings := by
      unfold replaceItem
      split
      · rename_i t
        rw [if_neg fun yes => annotated ⟨t, rfl, yes⟩]
      · rfl
    rw [other]
    exact replacement_item unannotated

/-! ## Files -/

/-- The tokens of the new file: the attributes of the old one and what stands for each
of its items. -/
def SourceFile.assembled (f : SourceFile) (cs : List Contribution) : List Token :=
  f.attributes.flatMap Attribute.tokens ++ cs.flatMap Contribution.tokens

/-- The lists that are filled for some items are joined from their contributions. -/
theorem contributes_items (settings : Settings) (items : List Tree) :
    ∃ cs, List.Forall₂ (Contributes settings) items cs ∧
      (Replacement.join (items.map (replaceItem settings))).tokens
        = cs.flatMap Contribution.tokens ∧
      (Replacement.join (items.map (replaceItem settings))).interfaces
        = cs.flatMap Contribution.pairs ∧
      (Replacement.join (items.map (replaceItem settings))).notes
        = cs.flatMap Contribution.notes ∧
      (Replacement.join (items.map (replaceItem settings))).report
        = cs.flatMap Contribution.violations := by
  induction items with
  | nil => exact ⟨[], .nil, rfl, rfl, rfl, rfl⟩
  | cons item items ih =>
      obtain ⟨c, first, shows⟩ := contributes_replaceItem settings item
      obtain ⟨cs, others, tokens, interfaces, notes, report⟩ := ih
      exact ⟨c :: cs, .cons first others,
        congrArg₂ (· ++ ·) shows.tokens tokens,
        congrArg₂ (· ++ ·) shows.interfaces interfaces,
        congrArg₂ (· ++ ·) shows.notes notes,
        congrArg₂ (· ++ ·) shows.report report⟩

theorem generate_parsed {source : String} {settings : Settings} {f : SourceFile}
    (parses : SourceFile.ofSource source = .ok f) :
    generate source settings = f.generate settings := by
  rw [generate, parses]

/-- The token trees of a text from its characters. -/
def Token.ofChars (cs : List Char) : Except Place (List Token) :=
  let start : Place := ⟨1, 0⟩
  let (place, cs) := match cs with
    | c :: cs => if c = byteOrderMark then (start.next c, cs) else (start, c :: cs)
    | [] => (start, [])
  let (lexemes, stop) := Lexer.lexemes place cs
  Lexer.arrange stop [] [] lexemes

def SourceFile.ofChars (cs : List Char) : Except ParseError SourceFile :=
  let cs := match cs with
    | c :: cs => if c = byteOrderMark then cs else c :: cs
    | [] => []
  match Token.ofChars (dropLoaderLine cs) with
  | .error place => throw ⟨place, .rule noTokens, false⟩
  | .ok tokens => SourceFile.ofTokens false tokens

theorem ofSource_ofList (cs : List Char) :
    SourceFile.ofSource (String.ofList cs) = SourceFile.ofChars cs := by
  rw [SourceFile.ofSource, String.toList_ofList]
  simp only [Token.ofSource, String.toList_ofList]
  rfl

/-- A text whose characters make a file that passes a check.  Nothing has to be decoded to
compute that. -/
theorem exists_file_of_check (source : String) {cs : List Char} (check : SourceFile → Bool)
    (spelled : source = String.ofList cs)
    (passes : (SourceFile.ofChars cs).toOption.any check = true) :
    ∃ f, SourceFile.ofSource source = .ok f ∧ check f = true := by
  rw [spelled, ofSource_ofList]
  match SourceFile.ofChars cs, passes with
  | .ok f, holds => exact ⟨f, rfl, holds⟩

/-! ## A small file -/

namespace Sample

/-- A file with an attribute, an interface, an annotated trait inside a module and a
function. -/
def file : String :=
  "#![a] #[logger_extensions] trait IUp \x7b\x7d "
    ++ "mod m \x7b #[logger_extensions] trait IIn \x7b\x7d \x7d fn f() \x7b\x7d"

theorem file_parses : ∃ f, SourceFile.ofSource file = .ok f := by
  obtain ⟨f, parses, -⟩ := exists_file_of_check file (fun _ => true)
    String.ofList_append.symm (by decide +kernel)
  exact ⟨f, parses⟩

end Sample

end LogInterface
