/-
# Proofs.Companion.Capture -- what copied signatures mean

The signature of a log method is written three times: in the interface, in the extension
trait, and in the implementation of the interface by the wrapper.  Each of these items
binds names around the signature, and a path that starts with one of them means
something else there than outside.

All three bind `Self`, each for itself, and a type that starts a path with it is
rejected.  The implementation also binds a type parameter for the wrapped logger
(`implementationTokens_binds`), and no rule looks for its name.  So a signature keeps its
meaning exactly if no parameter and neither of the two types in front of it is called
like that type parameter (`signatures_keep_meaning`).
-/
import LogInterface.Proofs.Companion.Coverage

namespace LogInterface

open Token

set_option autoImplicit false

/-! ## Binders -/

/-- An item that the signature of a log method stands in. -/
inductive Site where
  | interface
  | extension
  | wrapper
  deriving DecidableEq, Repr

/-- The type parameter for the wrapped logger. -/
def loggerType : String := "L"

/-- The spellings of the names that an item binds around its methods.  `Self` has no raw
form. -/
def Site.binds : Site → List String
  | .interface | .extension => ["Self"]
  | .wrapper => ["Self", loggerType, "r#" ++ loggerType]

/-- What a name stands for: something that an item binds, or the same as outside. -/
inductive Meaning where
  | bound (site : Site) (name : String)
  | outside (name : String)
  deriving DecidableEq, Repr

/-- What a name stands for inside an item. -/
def Site.meaning (s : Site) (i : Ident) : Meaning :=
  if i.text ∈ s.binds then .bound s i.name else .outside i.name

/-- The implementation binds the type parameter in front of its methods. -/
theorem implementationTokens_binds (c : Companion) :
    ∃ bounds, c.implementationTokens = allow ["non_snake_case"]
      ++ ([word "impl"] ++ operator "<" ++ [word loggerType] ++ operator ":" ++ bounds) := by
  refine ⟨within c.runtime.tokens "Logger >" ++ [c.interface.token] ++ code "for"
    ++ [c.name.token] ++ code "< L >"
    ++ braces (c.wrappers.flatMap (·.tokens (Naming.extensionTrait c.name))), ?_⟩
  have binder : code "impl < L :"
      = [word "impl"] ++ operator "<" ++ [word loggerType] ++ operator ":" := by
    rfl
  rw [Companion.implementationTokens, binder]
  simp only [List.append_assoc]

theorem binds_wrapper {s : Site} {text : String} (bound : text ∈ s.binds) :
    text ∈ Site.wrapper.binds := by
  cases s with
  | interface | extension => exact List.mem_cons.mpr (.inl (List.mem_singleton.mp bound))
  | wrapper => exact bound

/-- A name means the same in all items exactly if none of them binds it. -/
theorem meaning_eq_iff {i : Ident} :
    (∀ s s' : Site, s.meaning i = s'.meaning i) ↔ i.text ∉ Site.wrapper.binds := by
  constructor
  · intro same bound
    have apart := same .interface .wrapper
    rw [Site.meaning, Site.meaning, if_pos bound] at apart
    split at apart <;> cases apart
  · intro free s s'
    have outside (s : Site) : s.meaning i = .outside i.name :=
      if_neg fun bound => free (binds_wrapper bound)
    rw [outside, outside]

/-! ## Types -/

/-- Every path in the type starts with a name that means the same in all items. -/
def Tree.MeansOne (t : Tree) : Prop :=
  ∀ u : Tree, u.Occurs t → ∀ i ∈ u.heads, ∀ s s' : Site, s.meaning i = s'.meaning i

/-- No path in the type starts with the name of the type parameter, raw or not. -/
def Tree.AvoidsLogger (t : Tree) : Prop :=
  ∀ u : Tree, u.Occurs t → ∀ i ∈ u.heads, i.text ∉ [loggerType, "r#" ++ loggerType]

/-- For a type that the rules let through, the type parameter alone is in the way. -/
theorem Tree.IsPlain.meansOne_iff {t : Tree} (plain : t.IsPlain) :
    t.MeansOne ↔ t.AvoidsLogger := by
  have selfless (u : Tree) (occurs : u.Occurs t) (i : Ident) (isHead : i ∈ u.heads) :
      i.text ∉ Site.wrapper.binds ↔ i.text ∉ [loggerType, "r#" ++ loggerType] := by
    rw [Site.binds, List.mem_cons, not_or, and_iff_right (plain.selfless u occurs i isHead)]
  simp only [Tree.MeansOne, Tree.AvoidsLogger, meaning_eq_iff]
  exact forall₂_congr fun u occurs => forall₂_congr fun i isHead => selfless u occurs i isHead

/-! ## Accepted traits -/

/-- A type that a method of the trait takes. -/
def TraitDecl.Takes (t : TraitDecl) (type : Tree) : Prop :=
  ∃ m ∈ t.methods, ∃ attributes pattern, .typed attributes pattern type ∈ m.signature.inputs

/-- The signatures of the trait mean the same in all items, and so do the names of the
trait and of the wrapper, which stand in front of them in the implementation. -/
structure Companion.KeepsMeaning (c : Companion) (t : TraitDecl) : Prop where
  parameters : ∀ type, t.Takes type → type.MeansOne
  interface : c.interface.name ≠ loggerType
  wrapper : c.name.name ≠ loggerType

theorem isPlain_of_expand {t : TraitDecl} {cx : Context} {e : Expansion}
    (accepted : expand t cx = .ok e) {type : Tree} (taken : t.Takes type) : type.IsPlain := by
  obtain ⟨m, isMethod, attributes, pattern, isInput⟩ := taken
  have logging : ∀ m ∈ t.methods, m.signature.IsLogging :=
    ((List.forall₂_and_left _ _).mp ((methods_of_expand accepted).2.imp
      fun _ _ both => ⟨both.2.signature, both⟩)).1
  exact ((logging m isMethod).parameters attributes pattern type isInput).plain

/-- **A signature keeps its meaning, unless the type parameter captures it**: no type of
an accepted trait is captured by `Self`, and one that does not name the type parameter is
not captured at all. -/
theorem signatures_keep_meaning {t : TraitDecl} {cx : Context} {e : Expansion}
    (accepted : expand t cx = .ok e) :
    e.companion.KeepsMeaning t ↔ (∀ type, t.Takes type → type.AvoidsLogger) ∧
      t.name.name ≠ loggerType ∧ e.companion.name.name ≠ loggerType := by
  have types : (∀ type, t.Takes type → type.MeansOne) ↔
      ∀ type, t.Takes type → type.AvoidsLogger :=
    forall₂_congr fun _ taken => (isPlain_of_expand accepted taken).meansOne_iff
  have interface : e.companion.interface = t.name := by
    rw [(methods_of_expand accepted).1]
    rfl
  rw [← types, ← interface]
  exact ⟨fun ⟨parameters, interface, wrapper⟩ => ⟨parameters, interface, wrapper⟩,
    fun ⟨parameters, interface, wrapper⟩ => ⟨parameters, interface, wrapper⟩⟩

theorem signatures_keep_meaning_sample :
    ∃ e, expand Sample.interface Sample.context = .ok e ∧
      (e.companion.KeepsMeaning Sample.interface ↔
        (∀ type, Sample.interface.Takes type → type.AvoidsLogger) ∧
          Sample.interface.name.name ≠ loggerType ∧ e.companion.name.name ≠ loggerType) := by
  obtain ⟨e, accepted⟩ := Sample.accepted
  exact ⟨e, accepted, signatures_keep_meaning accepted⟩

namespace Sample

def loggerPath : Tree := .node .path [.node .segment [.token (.word loggerType), .absent]]

/-- An interface with a parameter of a type `L`. -/
def captured : TraitDecl :=
  { interface with
    name := ⟨"IApp", .nowhere⟩
    items := [.method (method "x" (message "1" "x")
      [.typed [] (.name ⟨"a", .nowhere⟩) (.node .pathType [loggerPath])])] }

end Sample

/-- The interface is accepted, and its parameter is captured. -/
theorem parameter_captured :
    ∃ e, expand Sample.captured Sample.context = .ok e ∧
      ¬e.companion.KeepsMeaning Sample.captured := by
  obtain ⟨e, accepted⟩ : ∃ e, expand Sample.captured Sample.context = .ok e :=
    exists_ok_of_isOk (by decide +kernel)
  refine ⟨e, accepted, fun keeps => ?_⟩
  have taken : Sample.captured.Takes (.node .pathType [Sample.loggerPath]) :=
    ⟨_, List.mem_cons_self, _, _, .tail _ List.mem_cons_self⟩
  have path : Sample.loggerPath.Occurs (.node .pathType [Sample.loggerPath]) :=
    .inPart List.mem_cons_self .here
  have same := keeps.parameters _ taken _ path ⟨loggerType, .nowhere⟩ List.mem_cons_self
    .interface .wrapper
  exact absurd same (by decide)

end LogInterface
