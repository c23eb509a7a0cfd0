/-
# Proofs.Generation.Names -- generated names are names

Every generated name is made of the name of the companion, and that is asked for or made
of the name of the trait.  A name that is asked for was read as one; a name that is made
is a word again, and what is put in front of it or behind it keeps it from being a
keyword, since no keyword starts or ends so (`isName_prepend`, `isName_append`).

One name has nothing put to it: the companion of a trait whose leading `I` goes.  Among
the keywords only `Self` starts with a capital, so this is the one name that can go
wrong (`isName_iff_of_expand`), and it does for the trait `ISelf` (`self_mem_names_iff`).
-/
import LogInterface.Proofs.Companion.Coverage
import LogInterface.Proofs.Generation.Contribution
import LogInterface.Proofs.Interface.Naming
import LogInterface.Proofs.Token.Word

namespace LogInterface

open LogInterface.Text

set_option autoImplicit false

/-! ## Additions -/

theorem append_ordinary {ending : String}
    (rare : ∀ k ∈ Parser.keywords, ¬ending.toList <:+ k.toList) (word : String) :
    word ++ ending ∉ Parser.keywords := by
  intro keyword
  refine rare _ keyword ?_
  rw [String.toList_append]
  exact List.suffix_append _ _

/-- A word with an ending that no keyword has. -/
theorem isName_append {word ending : String} (isWord : IsWord word.toList)
    (goesOn : ending.toList.all isIdentContinue = true)
    (rare : ∀ k ∈ Parser.keywords, ¬ending.toList <:+ k.toList) : IsName (word ++ ending) where
  identifier := by
    rw [String.toList_append]
    exact .plain (isWord.append (List.all_eq_true.mp goesOn))
  ordinary := append_ordinary rare word

/-- A word with a beginning that no keyword has. -/
theorem isName_prepend {beginning word : String} (isWord : IsWord beginning.toList)
    (goesOn : ∀ x ∈ word.toList, isIdentContinue x = true)
    (rare : ∀ k ∈ Parser.keywords, ¬beginning.toList <+: k.toList) :
    IsName (beginning ++ word) where
  identifier := by
    rw [String.toList_append]
    exact .plain (isWord.append goesOn)
  ordinary keyword := rare _ keyword (by
    rw [String.toList_append]
    exact List.prefix_append _ _)

/-! ## Snake case -/

theorem lower_goesOn {c : Char} (part : isIdentContinue c = true) :
    ∀ x ∈ lower c, isIdentContinue x = true := by
  obtain ⟨d, rest, lowered, first, goesOn⟩ := lower_spec part
  rw [lowered, List.forall_mem_cons]
  refine ⟨?_, goesOn⟩
  rcases first with rfl | starts
  · exact part
  · exact isIdentContinue_of_start d starts

theorem lower_isWord {c : Char} (starts : isIdentStart c = true) : IsWord (lower c) := by
  obtain ⟨d, rest, lowered, first, goesOn⟩ := lower_spec (isIdentContinue_of_start c starts)
  rw [lowered, isWord_cons]
  refine ⟨?_, goesOn⟩
  rcases first with rfl | letter
  · exact starts
  · exact letter

theorem snakeCase_isWord {name : String} (word : IsWord name.toList) :
    IsWord (Naming.snakeCase name).toList := by
  match name.toList, word, (Naming.snakeCase name).toList, Naming.snakeCase_spaced name with
  | [], empty, _, _ => exact (not_isWord_nil empty).elim
  | c :: cs, word, _, .keep spaced =>
      -- Behind the first character nothing can end a word.
      obtain ⟨starts, goesOn⟩ := isWord_cons.mp word
      exact (lower_isWord starts).append
        (spaced.forall_mem (by decide) fun d member => lower_goesOn (goesOn d member))

theorem asciiUpper_isWord {name : String} (word : IsWord name.toList) :
    IsWord (asciiUpper name).toList := by
  rw [asciiUpper, String.toList_ofList]
  cases spelled : name.toList with
  | nil =>
      rw [spelled] at word
      exact (not_isWord_nil word).elim
  | cons c cs =>
      rw [spelled] at word
      obtain ⟨starts, goesOn⟩ := word
      refine ⟨(toUpper_spec c).1 starts, ?_⟩
      rw [List.forall_mem_map]
      exact fun x member => (toUpper_spec x).2 (goesOn x member)

/-! ## The companion -/

theorem companionText_isWord {name : String} (word : IsWord name.toList) :
    IsWord (Naming.companionText name).toList := by
  rcases Naming.companionText_cases name with ⟨c, cs, spelled, upper, short⟩ | long
  · rw [spelled] at word
    rw [short, String.toList_ofList]
    refine isWord_cons.mpr ⟨isIdentStart_of_isUpper upper, ?_⟩
    exact (List.forall_mem_cons.mp (isWord_cons.mp word).2).2
  · rw [long, String.toList_append]
    exact word.append (List.all_eq_true.mp (by decide))

theorem append_logger_ordinary (name : String) : name ++ "Logger" ∉ Parser.keywords :=
  append_ordinary (by decide +kernel) name

/-- The one keyword that starts with a capital is `Self`. -/
theorem keyword_upper : ∀ k ∈ Parser.keywords, k.toList.head?.any Char.isUpper = true →
    k = "Self" := by
  decide +kernel

theorem companionText_ordinary {name : String} (other : Naming.companionText name ≠ "Self") :
    Naming.companionText name ∉ Parser.keywords := by
  rcases Naming.companionText_cases name with ⟨c, cs, -, upper, short⟩ | long
  · exact fun keyword => other (keyword_upper _ keyword (by rw [short]; simpa using upper))
  · rw [long]
    exact append_logger_ordinary name

theorem companionText_eq_self {name : String} :
    Naming.companionText name = "Self" ↔ name = "ISelf" := by
  constructor
  · intro same
    rcases Naming.companionText_cases name with ⟨c, cs, spelled, -, short⟩ | long
    · apply String.toList_injective
      rw [spelled, ← String.toList_ofList (l := c :: cs), ← short, same]
      rfl
    · refine absurd ?_ (append_logger_ordinary name)
      rw [← long, same]
      decide
  · rintro rfl
    decide

/-- A word denotes itself. -/
theorem name_of_isWord {i : Ident} (word : IsWord i.text.toList) : i.name = i.text := by
  unfold Ident.name
  split
  · rename_i raw
    rw [raw] at word
    exact word.not_raw.elim
  · rfl

/-- A companion has the name that was asked for, or else one that is made and is `Self`
for `ISelf` alone. -/
theorem companion_spec {cx : Context} {interface companion : Ident}
    (named : IsName interface.text) (names : cx.Names interface companion) :
    IsWord companion.name.toList ∧ (companion.text ≠ "Self" → IsName companion.text) ∧
      (companion.text = "Self" ↔
        cx.extensionArguments.1.name = none ∧ interface.name = "ISelf") := by
  cases names with
  | @asked args l _ read asks parses =>
      have isName := isName_of_withinLiteral parses
      have asked : cx.extensionArguments.1.name = some l := by
        simp only [Context.extensionArguments, read, asks]
      refine ⟨isName.isWord, fun _ => isName, ?_⟩
      constructor
      · intro self
        exact (isName.ordinary (by rw [self]; decide)).elim
      · rintro ⟨silent, -⟩
        cases asked.symm.trans silent
  | @derived args read silent =>
      have unasked : cx.extensionArguments.1.name = none := by
        simp only [Context.extensionArguments, read, silent]
      have word : IsWord (Naming.companion interface).text.toList :=
        companionText_isWord named.isWord
      refine ⟨by rwa [name_of_isWord word], fun other => ?_, ?_⟩
      · exact ⟨.plain word, companionText_ordinary other⟩
      · rw [and_iff_right unasked]
        exact companionText_eq_self

/-! ## All names -/

def MethodModule.names (x : MethodModule) : List String :=
  x.name.text :: x.typeNames ++ x.fields.map Ident.text

def ExtensionMethod.names (y : ExtensionMethod) : List String :=
  y.signature.name.text :: y.module.text :: y.captures.map Ident.text

def WrapperMethod.names (w : WrapperMethod) : List String :=
  w.signature.name.text :: w.target.text :: w.arguments.map Ident.text

/-- The names in the items of a companion that are no fixed part of them. -/
def Companion.names (c : Companion) : List String :=
  [c.name, Naming.extensionTrait c.name, Naming.hiddenModule c.name, Naming.eventsConst c.name,
      Naming.intoCompanion c.name].map Ident.text
    ++ c.modules.flatMap MethodModule.names ++ c.extensions.flatMap ExtensionMethod.names
    ++ c.wrappers.flatMap WrapperMethod.names ++ c.events.map Ident.text

structure Method.IsNamed (m : Method) : Prop where
  name : IsName m.signature.name.text
  parameters : ∀ i ∈ m.signature.idents, IsName i.text

structure TraitDecl.IsNamed (t : TraitDecl) : Prop where
  name : IsName t.name.text
  methods : ∀ m ∈ t.methods, m.IsNamed

theorem extensionTrait_isName {companion : Ident} (word : IsWord companion.name.toList) :
    IsName (Naming.extensionTrait companion).text := by
  show IsName (companion.name ++ "Ext")
  exact isName_append word (by decide) (by decide +kernel)

theorem hiddenModule_isName {companion : Ident} (word : IsWord companion.name.toList) :
    IsName (Naming.hiddenModule companion).text := by
  show IsName ("__" ++ Naming.snakeCase companion.name)
  exact isName_prepend (by decide) (snakeCase_isWord word).goesOn (by decide +kernel)

theorem eventsConst_isName {companion : Ident} (word : IsWord companion.name.toList) :
    IsName (Naming.eventsConst companion).text := by
  have upper := asciiUpper_isWord (snakeCase_isWord word)
  show IsName (asciiUpper (Naming.snakeCase companion.name) ++ "_EVENTS")
  exact isName_append upper (by decide) (by decide +kernel)

theorem intoCompanion_isName {companion : Ident} (word : IsWord companion.name.toList) :
    IsName (Naming.intoCompanion companion).text := by
  show IsName ("into_" ++ Naming.snakeCase companion.name)
  exact isName_prepend (by decide) (snakeCase_isWord word).goesOn (by decide +kernel)

/-- The digits of a number can follow in a word. -/
theorem repr_goesOn (n : Nat) : ∀ c ∈ (Nat.repr n).toList, isIdentContinue c = true := by
  intro c digit
  rw [Nat.toList_repr] at digit
  exact isIdentContinue_of_isDigit (Nat.isDigit_of_mem_toDigits (by decide) (by decide) digit)

theorem typeNames_isName (x : MethodModule) : ∀ s ∈ x.typeNames, IsName s := by
  rw [MethodModule.typeNames, List.forall_mem_map]
  intro i _
  exact isName_prepend (by decide) (repr_goesOn i) (by decide +kernel)

/-- The names in what is made of a method are its own, its parameters' and those of the
types of its fields. -/
theorem method_isName {m : Method} (named : m.IsNamed) {l : LogMethod}
    (described : m.describe = .ok l) :
    (∀ s ∈ l.module.names, IsName s) ∧ (∀ s ∈ l.extension.names, IsName s) ∧
      (∀ s ∈ l.wrapper.names, IsName s) ∧ IsName l.name.text := by
  obtain ⟨args, segments, -, rfl⟩ := describe_ok_iff.mp described
  have parameters :
      ∀ s ∈ (LogMethod.bind m args segments).parameterNames.map Ident.text, IsName s := by
    rw [List.forall_mem_map, parameterNames_bind]
    exact named.parameters
  have own : IsName (LogMethod.bind m args segments).name.text := named.name
  refine ⟨?module, ?extension, ?wrapper, own⟩
  case module =>
    exact List.forall_mem_cons.mpr
      ⟨own, List.forall_mem_append.mpr ⟨typeNames_isName _, parameters⟩⟩
  case extension =>
    exact List.forall_mem_cons.mpr ⟨own, List.forall_mem_cons.mpr ⟨own, parameters⟩⟩
  case wrapper =>
    exact List.forall_mem_cons.mpr ⟨own, List.forall_mem_cons.mpr ⟨own, parameters⟩⟩

theorem names_of_expand {t : TraitDecl} {cx : Context} {e : Expansion}
    (accepted : expand t cx = .ok e) : cx.Names t.name e.companion.name := by
  obtain ⟨built, -⟩ := expand_ok_iff.mp ⟨e, accepted⟩
  obtain ⟨⟨companion, named⟩, -⟩ := describe_report.mp built
  have answer : e.companion.name = companion := by
    rw [(methods_of_expand accepted).1]
    exact describe_companion named
  rwa [answer]

/-- The only name that may fail is the name of the companion itself. -/
theorem others_isName {t : TraitDecl} {cx : Context} {e : Expansion} (named : t.IsNamed)
    (accepted : expand t cx = .ok e) :
    ∀ s ∈ e.companion.names, s = e.companion.name.text ∨ IsName s := by
  have word := (companion_spec named.name (names_of_expand accepted)).1
  have own : ∀ s ∈ [e.companion.name, Naming.extensionTrait e.companion.name,
      Naming.hiddenModule e.companion.name, Naming.eventsConst e.companion.name,
      Naming.intoCompanion e.companion.name].map Ident.text,
      s = e.companion.name.text ∨ IsName s := by
    simp [extensionTrait_isName word, hiddenModule_isName word, eventsConst_isName word,
      intoCompanion_isName word]
  have methods (l : LogMethod) (member : l ∈ (t.describe cx).1.methods) :
      (∀ s ∈ l.module.names, IsName s) ∧ (∀ s ∈ l.extension.names, IsName s) ∧
        (∀ s ∈ l.wrapper.names, IsName s) ∧ IsName l.name.text := by
    obtain ⟨m, isMethod, described, -⟩ := exists_of_forall₂ (methods_of_expand accepted).2 l member
    exact method_isName (named.methods m isMethod) described
  have items := (methods_of_expand accepted).1
  simp only [Companion.names, List.forall_mem_append, List.forall_mem_flatMap,
    List.forall_mem_map]
  refine ⟨⟨⟨⟨List.forall_mem_map.mp own, ?modules⟩, ?extensions⟩, ?wrappers⟩, ?events⟩
  all_goals rw [items, Interface.companionItems]
  case modules =>
    rw [List.forall_mem_map]
    exact fun l member s name => .inr ((methods l member).1 s name)
  case extensions =>
    rw [List.forall_mem_map]
    exact fun l member s name => .inr ((methods l member).2.1 s name)
  case wrappers =>
    rw [List.forall_mem_map]
    exact fun l member s name => .inr ((methods l member).2.2.1 s name)
  case events =>
    rw [List.forall_mem_map]
    exact fun l member => .inr (methods l member).2.2.2

theorem IsName.ne_self {s : String} (isName : IsName s) : s ≠ "Self" := by
  rintro rfl
  exact isName.ordinary (by decide)

theorem isName_iff_of_expand {t : TraitDecl} {cx : Context} {e : Expansion} (named : t.IsNamed)
    (accepted : expand t cx = .ok e) : ∀ s ∈ e.companion.names, IsName s ↔ s ≠ "Self" := by
  obtain ⟨-, ordinary, -⟩ := companion_spec named.name (names_of_expand accepted)
  refine fun s member => ⟨IsName.ne_self, fun other => ?_⟩
  rcases others_isName named accepted s member with rfl | isName
  · exact ordinary other
  · exact isName

theorem self_mem_names_iff {t : TraitDecl} {cx : Context} {e : Expansion} (named : t.IsNamed)
    (accepted : expand t cx = .ok e) : "Self" ∈ e.companion.names ↔
      cx.extensionArguments.1.name = none ∧ t.name.name = "ISelf" := by
  obtain ⟨-, -, self⟩ := companion_spec named.name (names_of_expand accepted)
  rw [← self]
  constructor
  · intro member
    rcases others_isName named accepted _ member with same | isName
    · exact same.symm
    · exact (isName.ne_self rfl).elim
  · intro same
    rw [← same, Companion.names]
    simp

end LogInterface
