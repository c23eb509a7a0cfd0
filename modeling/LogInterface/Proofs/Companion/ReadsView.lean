/-
# Proofs.Companion.ReadsView -- the modules of methods are read

Generated source is put together from paths and calls with fixed names, the path of the runtime
crate, and the names in a trait.  Each of its parts is read as what it is meant for: a constant, a
struct and its two implementations, the functions in them, and their bodies step by step
(`MethodModule.isItem_module`).  Whatever the runtime path and the names are, the grammar needs a
fixed depth for it, since nothing in a module nests further with the number of its fields.

What is written and what is read differ in where the brackets of `++` stand, so most proofs end by
moving them.
-/
import LogInterface.Proofs.Companion.Shadowing
import LogInterface.Proofs.Parser.ReadsItem

namespace LogInterface

open Token
open LogInterface.Parser hiding operator word literal name fieldValue

set_option autoImplicit false

variable {n : Nat} {runtime : List Token}

/-! ## Paths and values -/

namespace Parser

variable {i : Ident} {ts : List Token}

/-- A path, and names behind it. -/
theorem IsPath.inside (path : IsPath ts) (names : List String) (last : String)
    (ordinary : ∀ w ∈ last :: names, w ∉ keywords) :
    IsPathTo ⟨last, .nowhere⟩
      (ts ++ (names ++ [last]).flatMap fun w => Token.operator "::" ++ [Token.word w]) := by
  obtain ⟨isName, others⟩ := List.forall_mem_cons.mp ordinary
  clear ordinary
  induction names generalizing ts with
  | nil =>
      have one := path.to (i := ⟨last, .nowhere⟩) (.inl isName)
      rwa [List.nil_append, List.flatMap_singleton]
  | cons w ws ih =>
      obtain ⟨first, others⟩ := List.forall_mem_cons.mp others
      rw [List.cons_append, List.flatMap_cons, ← List.append_assoc]
      exact ih (path.to (i := ⟨w, .nowhere⟩) (.inl first)).path others

theorem IsPath.ahead (path : IsPath ts) (us : List Token) : PathAhead (ts ++ us) := by
  obtain ⟨_, written⟩ := path
  exact written.ahead us

theorem isPathTo_word {w : String} (segment : IsSegment w) :
    IsPathTo ⟨w, .nowhere⟩ [Token.word w] := IsSegment.path segment

theorem isType_word {w : String} (segment : IsSegment w) : IsType 1 [Token.word w] :=
  (isPathTo_word segment).path.type

section

variable {structs : Bool}

/-- A path by itself. -/
theorem IsPathTo.alone (path : IsPathTo i ts) (other : i.text ≠ "crate") :
    IsValue (n + 2) structs ts := by
  have value : IsValue (n + 2) structs (ts ++ []) := path.value other .none
  rwa [List.append_nil] at value

theorem isValue_name (ordinary : i.text ∉ keywords) : IsValue (n + 2) structs [i.token] :=
  (IsSegment.path (.inl ordinary)).alone fun same => ordinary (same ▸ by decide)

/-- A call, with a comma behind its last argument or without. -/
theorem IsPathTo.call (path : IsPathTo i ts) (other : i.text ≠ "crate") (trailing : Bool)
    {xs : List (List Token)} (each : ∀ x ∈ xs, IsValue n true x) :
    IsValue (n + 2) structs (ts ++ parens (commaTokens trailing xs)) :=
  path.value other (.call trailing .nowhere .nowhere each .none)

end

/-- The receiver in a value, and a field of it. -/
theorem isValue_selfField (ordinary : i.text ∉ keywords) :
    IsValue 2 true ([Token.word "self"] ++ [.punct '.' .alone .nowhere, i.token]) :=
  (isPathTo_word (.inr (by decide))).value (by decide) (.field .nowhere ordinary)

/-- A body that is one value. -/
theorem isBody_value {m : Nat} (value : IsValue m true ts)
    (otherwise : ∀ us, startsWord "else" (ts ++ us) = false) (less : m + 2 ≤ n) : IsBody n ts :=
  have body : IsBody (m + 2) ([].flatten ++ ts) :=
    isBody (List.forall_mem_nil _) (.inr (value.last otherwise))
  body.mono less

theorem forall_mem_pair {α : Type} {holds : α → Prop} {x y : α} (first : holds x)
    (second : holds y) : ∀ z ∈ [x, y], holds z :=
  List.forall_mem_cons.mpr ⟨first, List.forall_mem_singleton.mpr second⟩

/-! ## Items one after another -/

def IsItems (n : Nat) (ts : List Token) : Prop :=
  ∃ xs : List (List Token), ts = xs.flatten ∧ ∀ x ∈ xs, IsItem n x

theorem IsItems.nothing : IsItems n [] := ⟨[], rfl, List.forall_mem_nil _⟩

theorem IsItem.and {us : List Token} (first : IsItem n ts) (others : IsItems n us) :
    IsItems n (ts ++ us) := by
  obtain ⟨xs, rfl, each⟩ := others
  exact ⟨ts :: xs, rfl, List.forall_mem_cons.mpr ⟨first, each⟩⟩

theorem IsItems.append {us : List Token} (first : IsItems n ts) (others : IsItems n us) :
    IsItems n (ts ++ us) := by
  obtain ⟨xs, rfl, each⟩ := first
  obtain ⟨ys, rfl, more⟩ := others
  exact ⟨xs ++ ys, List.flatten_append.symm, List.forall_mem_append.mpr ⟨each, more⟩⟩

theorem IsItems.mono {m : Nat} (items : IsItems m ts) (less : m ≤ n) : IsItems n ts := by
  obtain ⟨xs, rfl, each⟩ := items
  exact ⟨xs, rfl, fun x member => (each x member).mono less⟩

/-! ## Functions -/

theorem isInputs_cons {x : List Token} {xs : List (List Token)} {received : Bool}
    (first : IsInput n received x) (others : ∀ y ∈ xs, IsInput n false y) :
    IsInputs n (x :: xs) where
  first y same := by
    cases same
    exact ⟨received, first⟩
  others := others

/-- The receiver `&self`. -/
theorem isInput_self (n : Nat) : IsInput n true (code "& self") :=
  (isInput_receiver (.inr rfl)).mono (Nat.zero_le n)

/-- A function in an implementation, without attributes and a visibility. -/
theorem isMember_function {xs : List (List Token)} {result content : List Token}
    (ordinary : i.text ∉ keywords) (inputs : IsInputs n xs) (output : IsOutput n result)
    (body : IsBody n content) :
    IsMember n (code "fn" ++ ([i.token] ++ (parens (commaTokens false xs)
      ++ (result ++ braces content)))) := by
  have member := isMember (List.forall_mem_nil _) .none
    (isSignature (.inl rfl) ordinary inputs output .none) body
  simp only [List.append_assoc, List.flatten_nil, List.nil_append] at member
  exact member

end Parser

/-! ## Generated source -/

/-- The path of the core library. -/
theorem core : IsPath (code ":: core") :=
  ⟨⟨true, [⟨"core", .nowhere⟩]⟩, .rooted (.last (.inl (by decide)))⟩

theorem isAttribute_allow (lints : List String) : IsAttribute n (allow lints) :=
  (isAttribute_list (i := ⟨"allow", .nowhere⟩) (by decide)).mono (Nat.zero_le n)

theorem isAttribute_documentation (s : String) : IsAttribute n (documentation s) :=
  (isAttribute_literal (i := ⟨"doc", .nowhere⟩) (by decide)).mono (Nat.zero_le n)

theorem isAttribute_rawDocumentation (s : String) : IsAttribute n (rawDocumentation s) :=
  (isAttribute_literal (i := ⟨"doc", .nowhere⟩) (by decide)).mono (Nat.zero_le n)

theorem commaTokens_false (xs : List (List Token)) : commaTokens false xs = commas xs := by
  induction xs with
  | nil => rfl
  | cons x xs ih =>
      cases xs with
      | nil => exact List.append_nil x
      | cons y ys => exact congrArg (x ++ operator "," ++ ·) ih

theorem commaTokens_true (xs : List (List Token)) :
    commaTokens true xs = xs.flatMap (· ++ operator ",") := by
  induction xs with
  | nil => rfl
  | cons x xs ih =>
      cases xs with
      | nil => exact (List.append_nil _).symm
      | cons y ys => exact congrArg (x ++ operator "," ++ ·) ih

namespace MethodModule

variable {x : MethodModule}

/-! ## Events -/

theorem isItem_event (path : IsPath runtime) : IsItem 7 (x.eventTokens runtime) := by
  have type := (path.inside [] "EventId" (by decide)).path.type
  have number : IsValue 3 true
      ((if x.event < 0 then operator "-" else []) ++ number x.event.natAbs) := by
    split
    · exact (isValue_literal _ _).sign (.inl rfl)
    · exact (isValue_literal _ _).mono (by decide)
  have name : IsValue 3 true (stringLiteral x.eventName) := (isValue_literal _ _).mono (by decide)
  have event : IsValue 5 true _ :=
    (path.inside ["EventId"] "new" (by decide)).call (by decide) false (forall_mem_pair number name)
  have item := isItem_const (i := ⟨"EVENT", .nowhere⟩) (List.forall_mem_nil _) (.all .nowhere)
    (by decide) (type.mono (by decide)) event
  simp only [eventTokens, within, commaTokens, List.append_assoc] at item ⊢
  exact item

/-! ## Fields -/

theorem isValue_fieldValue (path : IsPath runtime) {field : Ident}
    (ordinary : field.text ∉ keywords) : IsValue 5 true (fieldValue runtime field) :=
  (path.inside ["ToFieldValue"] "to_field_value" (by decide)).call (by decide) false
    (List.forall_mem_singleton.mpr (isValue_selfField ordinary).reference)

theorem isMember_len : IsMember 12 x.lenTokens := by
  have usize : IsType 1 (code "usize") := isType_word (.inl (by decide))
  have count : IsBody 12 (number x.fields.length) :=
    isBody_value (isValue_literal _ _) (fun _ => rfl) (by decide)
  exact isMember_function (i := ⟨"len", .nowhere⟩) (by decide)
    (isInputs_cons (isInput_self 12) (List.forall_mem_nil _)) (.type (usize.mono (by decide))) count

theorem isType_optionalField (path : IsPath runtime) : IsType 2 (optionalField runtime) := by
  have lifetime : IsArgument 0 someLifetime := isArgument_lifetime .nowhere .nowhere "_"
  have field := (path.inside [] "Field" (by decide)).angleType .joint .nowhere (by decide)
    (List.forall_mem_singleton.mpr lifetime)
  have argument := field.argument fun us => by
    rw [List.append_assoc, List.append_assoc]
    exact path.ahead _
  have option := (core.inside ["option"] "Option" (by decide)).angleType .alone .nowhere (by decide)
    (List.forall_mem_singleton.mpr argument)
  simp only [optionalField, within, commaTokens, List.append_assoc] at option ⊢
  exact option

theorem isArm_field (path : IsPath runtime) (index : Nat) {field : Ident}
    (ordinary : field.text ∉ keywords) : IsArm 10 (fieldArm runtime index field) := by
  have name : IsValue 5 true (stringLiteral field.name) := (isValue_literal _ _).mono (by decide)
  have made : IsValue 7 true _ := (path.inside ["Field"] "new" (by decide)).call (by decide) true
    (forall_mem_pair name (isValue_fieldValue path ordinary))
  have some : IsValue 9 true _ :=
    (core.inside ["option", "Option"] "Some" (by decide)).call (by decide) false
      (List.forall_mem_singleton.mpr made)
  have arm := isArm ((isPattern_literal (Nat.repr index) .nowhere).mono (by decide)) some
  simp only [fieldArm, within, commaTokens, List.append_assoc] at arm ⊢
  exact arm

/-- The function that gives the field at an index, however it does. -/
theorem isMember_choice (path : IsPath runtime) {w : String} (ordinary : w ∉ keywords)
    {content : List Token} (body : IsBody 12 content) :
    IsMember 12 (code "fn field"
      ++ (parens (code "& self ," ++ ([word w] ++ (operator ":" ++ code "usize")))
      ++ (operator "->" ++ (optionalField runtime ++ braces content)))) := by
  have usize : IsType 1 (code "usize") := isType_word (.inl (by decide))
  have index := (usize.input (i := ⟨w, .nowhere⟩) ordinary fun _ => rfl).mono (by decide : 2 ≤ 12)
  have member := isMember_function (i := ⟨"field", .nowhere⟩) (by decide)
    (isInputs_cons (isInput_self 12) (List.forall_mem_singleton.mpr index))
    (.type ((isType_optionalField path).mono (by decide))) body
  simp only [List.append_assoc] at member
  exact member

theorem isMember_field (path : IsPath runtime) (ordinary : ∀ i ∈ x.fields, i.text ∉ keywords) :
    IsMember 12 (x.fieldTokens runtime) := by
  have none : IsValue 9 true (code ":: core :: option :: Option :: None") :=
    (core.inside ["option", "Option"] "None" (by decide)).alone (by decide)
  rw [fieldTokens]
  split
  · have member := isMember_choice path (by decide : "_index" ∉ keywords)
      (isBody_value none (fun _ => rfl) (by decide))
    simp only [List.append_assoc]
    exact member
  · have arms : ∀ y ∈ (x.fields.zipIdx.map fun p => fieldArm runtime p.2 p.1)
        ++ [code "_ => :: core :: option :: Option :: None ,"], IsArm 10 y := by
      rw [List.forall_mem_append, List.forall_mem_map, List.forall_mem_singleton]
      refine ⟨fun p member => isArm_field path p.2 (ordinary p.1 ?_), ?_⟩
      · exact List.fst_mem_of_mem_zipIdx member
      · exact isArm ((isPattern_wild .nowhere).mono (by decide)) none
    have index : IsValue 9 false (code "index") :=
      (isPathTo_word (.inl (by decide))).alone (by decide)
    have body : IsBody 12 ([].flatten ++ _) :=
      isBody (List.forall_mem_nil _) (.inr (isLast_match index arms))
    have member := isMember_choice path (by decide : "index" ∉ keywords) body
    rw [List.flatten_append, ← List.flatMap_def] at member
    simp only [List.append_assoc] at member ⊢
    exact member

/-! ## Messages -/

/-- The call that writes a text, with the mark that passes on its failure or without. -/
theorem isValue_writeText (s : String) {mark : List Token} (tail : IsTail 2 mark) :
    IsValue 4 true (code "f . write_str" ++ parens (stringLiteral s) ++ mark) :=
  have f : IsPathTo ⟨"f", .nowhere⟩ (code "f") := isPathTo_word (.inl (by decide))
  have text : ∀ y ∈ [stringLiteral s], IsValue 2 true y :=
    List.forall_mem_singleton.mpr (isValue_literal _ _)
  f.value (by decide) (.method (i := ⟨"write_str", .nowhere⟩) false .nowhere .nowhere .nowhere
    (by decide) text tail)

theorem isStatement_write (path : IsPath runtime) {w : Write}
    (ordinary : ∀ i, w = .field i → i.text ∉ keywords) :
    IsStatement 9 (writeTokens runtime w) := by
  cases w with
  | text s =>
      have written := isValue_writeText s (.mark .nowhere .none)
      exact (written.statement fun _ => rfl).mono (by decide)
  | field field =>
      have shown := (isValue_fieldValue path (ordinary field rfl)).reference
      have f : IsValue 6 true (code "f") := (isPathTo_word (.inl (by decide))).alone (by decide)
      have written : IsValue 8 true _ := (core.inside ["fmt", "Display"] "fmt" (by decide)).value
        (by decide) (.call true .nowhere .nowhere (forall_mem_pair shown f) (.mark .nowhere .none))
      have statement := written.statement fun _ => rfl
      simp only [writeTokens, commaTokens, List.append_assoc] at statement ⊢
      exact statement

theorem isBody_display (path : IsPath runtime)
    (ordinary : ∀ i, .field i ∈ x.writes → i.text ∉ keywords) :
    IsBody 12 (x.displayBody runtime) := by
  rw [displayBody]
  split
  · exact isBody_value (isValue_writeText "" .none) (fun _ => rfl) (by decide)
  · have ok : IsValue 10 true _ :=
      (core.inside ["result", "Result"] "Ok" (by decide)).call (by decide) false
        (List.forall_mem_singleton.mpr isValue_unit)
    have statements : ∀ y ∈ x.writes.map (writeTokens runtime), IsStatement 11 y := by
      rw [List.forall_mem_map]
      intro w member
      exact (isStatement_write path fun i same => ordinary i (same ▸ member)).mono (by decide)
    have body := isBody statements (.inr (ok.last fun _ => rfl))
    rw [← List.flatMap_def] at body
    simp only [commaTokens, List.append_assoc] at body ⊢
    exact body

theorem isMember_display (path : IsPath runtime)
    (ordinary : ∀ i, .field i ∈ x.writes → i.text ∉ keywords) :
    IsMember 12 (x.displayTokens runtime) := by
  have lifetime : IsArgument 0 someLifetime := isArgument_lifetime .nowhere .nowhere "_"
  have formatter := (core.inside ["fmt"] "Formatter" (by decide)).angleType .alone .nowhere
    (by decide) (List.forall_mem_singleton.mpr lifetime)
  have f := (formatter.reference (.inr ⟨.nowhere, rfl⟩) fun _ => ⟨rfl, rfl⟩).input
    (i := ⟨"f", .nowhere⟩) (by decide) fun _ => rfl
  have result := (core.inside ["fmt"] "Result" (by decide)).path.type
  have member := isMember_function (i := ⟨"fmt", .nowhere⟩) (by decide)
    (isInputs_cons (isInput_self 12) (List.forall_mem_singleton.mpr (f.mono (by decide))))
    (.type (result.mono (by decide))) (isBody_display path ordinary)
  simp only [displayTokens, List.append_assoc] at member ⊢
  exact member

/-! ## Views -/

/-- The type parameters of a view, without bounds or with some. -/
theorem isParam_typeNames {bounds : List (List Token)} (each : ∀ y ∈ bounds, IsBound n y) :
    ∀ y ∈ x.typeNames.map fun t => code t ++ colonTokens bounds, IsParam n y := by
  rw [List.forall_mem_map]
  intro t member
  rw [code_of_isWord (x.typeNames_isWord t member)]
  exact isParam_name (i := ⟨t, .nowhere⟩) (typeNames_isName x t member).ordinary each

theorem isItem_struct_fields (ordinary : ∀ i ∈ x.fields, i.text ∉ keywords) :
    IsItem 2 (code "pub struct Fields" ++ x.typeArguments
      ++ braces ((x.fields.zip x.typeNames).flatMap fun (field, t) =>
          code "pub" ++ [field.token] ++ code (": " ++ t ++ " ,"))) := by
  have fields : ∀ y ∈ (x.fields.zip x.typeNames).map fun p =>
      [.ident "pub" .nowhere] ++ p.1.token :: (operator ":" ++ code p.2), IsField 1 y := by
    rw [List.forall_mem_map]
    intro p member
    obtain ⟨isField, isType⟩ := List.of_mem_zip member
    rw [code_of_isWord (x.typeNames_isWord p.2 isType)]
    exact .named (.all .nowhere) (ordinary p.1 isField)
      (isType_word (.inl (typeNames_isName x p.2 isType).ordinary))
  have params : IsGenerics 1 x.typeArguments := by
    have params := IsGenerics.params (n := 1) false
      (isParam_typeNames (x := x) (List.forall_mem_nil _))
    rw [commaTokens_false] at params
    simp only [colonTokens, List.append_nil] at params
    rw [typeArguments, List.append_assoc]
    exact params
  have item := isItem_struct (i := ⟨"Fields", .nowhere⟩) (List.forall_mem_nil _) (.all .nowhere)
    (by decide) params (.inr ⟨true, _, rfl, fields⟩)
  rw [commaTokens_true, List.flatMap_map] at item
  simp only [code_fieldType, List.append_assoc] at item ⊢
  exact item

theorem isImplGenerics_boundedTypes (path : IsPath runtime) (some : x.fields ≠ []) :
    IsImplGenerics 12 (x.boundedTypes runtime) := by
  have bound : ∀ y ∈ [within runtime "ToFieldValue"], IsBound 12 y :=
    List.forall_mem_singleton.mpr
      ((path.inside [] "ToFieldValue" (by decide)).path.bound.mono (by decide))
  have each := isParam_typeNames (x := x) bound
  have written : x.boundedTypes runtime = operator "<" ++ (commaTokens false
      (x.typeNames.map fun t => code t ++ colonTokens [within runtime "ToFieldValue"])
        ++ operator ">") := by
    rw [boundedTypes, commaTokens_false, List.append_assoc]
    simp only [colonTokens, joinWith, List.append_assoc]
    rfl
  -- The first parameter tells generic parameters from a qualified path.
  obtain ⟨t, ts, names⟩ := List.exists_cons_of_ne_nil (x.typeNames_ne_nil some)
  have isType : t ∈ x.typeNames := names ▸ List.mem_cons_self
  rw [names, List.map_cons, code_of_isWord (x.typeNames_isWord t isType)] at each written
  rw [written]
  exact .params (i := ⟨t, .nowhere⟩) false (typeNames_isName x t isType).ordinary each

/-- The type of a view with arguments. -/
theorem isType_view : IsType 2 (code "Fields" ++ x.typeArguments) := by
  have arguments : ∀ y ∈ x.typeNames.map code, IsArgument 1 y := by
    rw [List.forall_mem_map]
    intro t member
    rw [code_of_isWord (x.typeNames_isWord t member)]
    have path := (isPathTo_word (.inl (typeNames_isName x t member).ordinary)).path
    exact path.type.argument path.ahead
  have type := (isPathTo_word (w := "Fields") (.inl (by decide))).angleType .alone .nowhere
    (by decide) arguments
  rw [commaTokens_false] at type
  rw [typeArguments, List.append_assoc]
  exact type

/-- An implementation of a trait for a view. -/
theorem isItem_implementation {trait params arguments : List Token} {members : List (List Token)}
    (generic : IsImplGenerics 12 params) (isTrait : IsPath trait)
    (type : IsType 2 (code "Fields" ++ arguments)) (each : ∀ y ∈ members, IsMember 12 y) :
    IsItem 13 (code "impl" ++ params ++ trait ++ code "for Fields" ++ arguments
      ++ braces members.flatten) := by
  have ahead := isTrait.ahead []
  rw [List.append_nil] at ahead
  have item := isItem_impl (List.forall_mem_nil _) generic
    (.trait (isTrait.type.mono (by decide)) (type.mono (by decide)) ahead) each
  simp only [List.append_assoc] at item ⊢
  exact item

theorem isItems_view (path : IsPath runtime) (ordinary : ∀ i ∈ x.fields, i.text ∉ keywords)
    (written : ∀ i, .field i ∈ x.writes → i.text ∉ keywords) :
    IsItems 13 (x.viewTokens runtime) := by
  have logFields := (path.inside [] "LogFields" (by decide)).path
  have display := (core.inside ["fmt"] "Display" (by decide)).path
  have fields := forall_mem_pair (isMember_len (x := x)) (isMember_field path ordinary)
  have shown := List.forall_mem_singleton.mpr (isMember_display path written)
  rw [viewTokens]
  split
  · have type : IsType 1 (code "Fields" ++ []) := isType_word (.inl (by decide))
    have view := type.mono (by decide : 1 ≤ 2)
    have struct := isItem_struct (n := 12) (i := ⟨"Fields", .nowhere⟩) (List.forall_mem_nil _)
      (.all .nowhere) (by decide) .none (.inl rfl)
    have items := struct.and ((isItem_implementation .none logFields view fields).and
      ((isItem_implementation .none display view shown).and .nothing))
    simp only [within, List.append_assoc, List.flatten_cons, List.flatten_nil,
      List.append_nil] at items ⊢
    exact items
  · rename_i some
    have view := isType_view (x := x)
    have generic := isImplGenerics_boundedTypes path (mt List.isEmpty_iff.mpr some)
    have struct := (isItem_struct_fields ordinary).mono (by decide : 2 ≤ 13)
    have items := struct.and ((isItem_implementation generic logFields view fields).and
      ((isItem_implementation generic display view shown).and .nothing))
    simp only [within, List.append_assoc, List.flatten_cons, List.flatten_nil,
      List.append_nil] at items ⊢
    exact items

/-! ## Modules -/

theorem isItems_parentImport (needed : Bool) : IsItems 14 (parentImport needed) := by
  rw [parentImport]
  split
  · exact (isItem_import (List.forall_mem_singleton.mpr (isAttribute_allow _))).and .nothing
  · exact .nothing

/-- **The module of a method is read as an item.** -/
theorem isItem_module (path : IsPath runtime) (needed : Bool) (named : x.name.text ∉ keywords)
    (ordinary : ∀ i ∈ x.fields, i.text ∉ keywords)
    (written : ∀ i, .field i ∈ x.writes → i.text ∉ keywords) :
    IsItem 15 (x.tokens runtime needed) := by
  have view := (isItems_view path ordinary written).mono (by decide : 13 ≤ 14)
  have event := (isItem_event (x := x) path).mono (by decide : 7 ≤ 14)
  obtain ⟨ys, same, each⟩ := (isItems_parentImport needed).append (event.and view)
  have item := isItem_mod (List.forall_mem_nil _) (.all .nowhere) named each
  rw [← same] at item
  simp only [tokens, List.append_assoc] at item ⊢
  exact item

end MethodModule

end LogInterface
