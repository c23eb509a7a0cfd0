/-
# Proofs.Interface.Naming -- when made names coincide

All names of one interface come from the name of its companion: the extension trait, the
hidden module and the constant that lists the events (`Naming.made`).  Their shapes keep
them apart.  Snake case is never shorter than what it is made of (`length_snakeCase`) and
has no ASCII capital (`snakeCase_uncapped`), while the two endings have some, and end in
different letters.

So what is made for two companions meets exactly if they have one snake case
(`made_disjoint_iff`), and all that is declared for them meets in no other way than that
or by a companion that is named like something made for the other
(`declared_disjoint_iff`).
-/
import LogInterface.Proofs.Interface.SnakeCase

namespace LogInterface.Naming

open LogInterface.Text

set_option autoImplicit false

/-! ## The companion of a trait -/

/-- Either the leading `I` goes, and a capital comes first, or a suffix is added. -/
theorem companionText_cases (name : String) :
    (∃ c cs, name.toList = 'I' :: c :: cs ∧ c.isUpper = true ∧
        companionText name = String.ofList (c :: cs)) ∨
      companionText name = name ++ "Logger" := by
  unfold companionText
  split
  · rename_i c cs spelled
    split
    · rename_i upper
      exact .inl ⟨c, cs, spelled, upper, rfl⟩
    · exact .inr rfl
  · exact .inr rfl

/-! ## Snake case -/

theorem snakeCase_uncapped (name : String) : IsUncapped (snakeCase name) :=
  (snakeCase_spaced name).forall_mem (by decide) fun c _ => lower_not_isUpper c

theorem length_snakeCase (name : String) : name.length ≤ (snakeCase name).length := by
  rw [← String.length_toList, ← String.length_toList]
  exact (snakeCase_spaced name).length_le

/-! ## Made names -/

/-- The names that are made of the name of a companion.  They are never spelled raw. -/
def made (companion : Ident) : List String :=
  [extensionTrait companion, hiddenModule companion, eventsConst companion].map Ident.text

/-- The names of the items that are declared for a companion. -/
def declared (companion : Ident) : List String := companion.name :: made companion

variable (c c' : Ident)

theorem hiddenModule_uncapped : IsUncapped (hiddenModule c).text := by
  have mark : IsUncapped "__" := by decide
  rw [hiddenModule, IsUncapped, String.toList_append]
  exact List.forall_mem_append.mpr ⟨mark, snakeCase_uncapped c.name⟩

/-- A capital in an ending stays one behind everything. -/
theorem not_uncapped_append {name ending : String} (capital : ¬IsUncapped ending) :
    ¬IsUncapped (name ++ ending) := by
  intro uncapped
  rw [IsUncapped, String.toList_append] at uncapped
  exact capital (List.forall_mem_append.mp uncapped).2

theorem extensionTrait_capped : ¬IsUncapped (extensionTrait c).text := by
  show ¬IsUncapped (c.name ++ "Ext")
  exact not_uncapped_append (by decide)

theorem eventsConst_capped : ¬IsUncapped (eventsConst c).text := by
  show ¬IsUncapped (asciiUpper (snakeCase c.name) ++ "_EVENTS")
  exact not_uncapped_append (by decide)

theorem extensionTrait_ne_hiddenModule : (extensionTrait c).text ≠ (hiddenModule c').text := by
  intro same
  have capped := extensionTrait_capped c
  rw [same] at capped
  exact capped (hiddenModule_uncapped c')

theorem eventsConst_ne_hiddenModule : (eventsConst c).text ≠ (hiddenModule c').text := by
  intro same
  have capped := eventsConst_capped c
  rw [same] at capped
  exact capped (hiddenModule_uncapped c')

theorem extensionTrait_ne_eventsConst : (extensionTrait c).text ≠ (eventsConst c').text := by
  intro same
  have lasts : (c.name ++ "Ext").toList.getLast?
      = (asciiUpper (snakeCase c'.name) ++ "_EVENTS").toList.getLast? :=
    congrArg (fun s => s.toList.getLast?) same
  rw [String.toList_append, String.toList_append, List.getLast?_append, List.getLast?_append]
    at lasts
  exact absurd lasts (by simp)

variable {c c'}

theorem extensionTrait_inj (same : (extensionTrait c).text = (extensionTrait c').text) :
    c.name = c'.name :=
  (String.append_left_inj _).mp same

theorem hiddenModule_inj (same : (hiddenModule c).text = (hiddenModule c').text) :
    snakeCase c.name = snakeCase c'.name :=
  (String.append_right_inj _).mp same

theorem eventsConst_inj (same : (eventsConst c).text = (eventsConst c').text) :
    snakeCase c.name = snakeCase c'.name :=
  asciiUpper_inj (snakeCase_uncapped _) (snakeCase_uncapped _) ((String.append_left_inj _).mp same)

/-! ## Two companions -/

/-- What is made for two companions is apart exactly if their snake case is. -/
theorem made_disjoint_iff :
    (made c).Disjoint (made c') ↔ snakeCase c.name ≠ snakeCase c'.name := by
  constructor
  · intro apart same
    have hidden : (hiddenModule c).text = (hiddenModule c').text := congrArg ("__" ++ ·) same
    exact apart (a := (hiddenModule c).text) (by simp [made]) (by simp [made, hidden])
  · intro other s isMade isMade'
    simp only [made, List.map_cons, List.map_nil, List.mem_cons, List.not_mem_nil, or_false]
      at isMade isMade'
    rcases isMade with rfl | rfl | rfl <;> rcases isMade' with same | same | same
    · exact other (congrArg snakeCase (extensionTrait_inj same))
    · exact extensionTrait_ne_hiddenModule c c' same
    · exact extensionTrait_ne_eventsConst c c' same
    · exact extensionTrait_ne_hiddenModule c' c same.symm
    · exact other (hiddenModule_inj same)
    · exact eventsConst_ne_hiddenModule c' c same.symm
    · exact extensionTrait_ne_eventsConst c' c same.symm
    · exact eventsConst_ne_hiddenModule c c' same
    · exact other (eventsConst_inj same)

/-- What is declared for two companions is apart exactly if their snake case is and neither
is named like something made for the other. -/
theorem declared_disjoint_iff :
    (declared c).Disjoint (declared c') ↔
      snakeCase c.name ≠ snakeCase c'.name ∧ c.name ∉ made c' ∧ c'.name ∉ made c := by
  rw [declared, declared, List.disjoint_cons_left, List.disjoint_cons_right, made_disjoint_iff,
    List.mem_cons, not_or]
  constructor
  · rintro ⟨⟨-, apart⟩, apart', other⟩
    exact ⟨other, apart, apart'⟩
  · rintro ⟨other, apart, apart'⟩
    exact ⟨⟨fun same => other (congrArg snakeCase same), apart⟩, apart', other⟩

/-! ## One companion -/

/-- The types of one companion: itself, the extension trait and the hidden module, which
shares their names. -/
def types (companion : Ident) : List String :=
  [companion.name, (extensionTrait companion).text, (hiddenModule companion).text]

variable (c)

theorem length_extensionTrait : (extensionTrait c).text.length = c.name.length + 3 :=
  String.length_append _ _

theorem length_hiddenModule : c.name.length + 2 ≤ (hiddenModule c).text.length := by
  have longer := length_snakeCase c.name
  rw [hiddenModule, String.length_append]
  have mark : "__".length = 2 := by decide
  omega

theorem types_nodup : (types c).Nodup := by
  have ext := length_extensionTrait c
  have hidden := length_hiddenModule c
  have notExt : c.name ≠ (extensionTrait c).text := fun same => by
    rw [← same] at ext
    omega
  have notHidden : c.name ≠ (hiddenModule c).text := fun same => by
    rw [← same] at hidden
    omega
  simp [types, notExt, notHidden, extensionTrait_ne_hiddenModule c c]

end LogInterface.Naming
