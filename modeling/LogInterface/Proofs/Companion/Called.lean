/-
# Proofs.Companion.Called -- what a call by name does

A call names a method.  The companion is searched for that name up to three times: for the
method of the extension trait, for its module, and for the method of the wrapper.  All three
lists follow the methods of the trait, so every search ends at what was made for the first
method of that name (`finds_of_expand`).

The wrapper passes its arguments on by the names of the parameters, and then the view captures
them by the same names.  The second look-up finds what the first one found (`view_passed`),
even if two parameters had one name.  So both forms of a call do the same (`call_logs`): the
logger is asked for the level of the method, once, and is given one record if it wants it.
-/
import LogInterface.Proofs.Companion.View

namespace LogInterface

set_option autoImplicit false

/-! ## Methods by name -/

/-- The method of a name.  No two methods of a trait that compiles have one name, with or
without `r#`. -/
def TraitDecl.method? (t : TraitDecl) (name : Ident) : Option Method :=
  t.methods.find? (·.signature.name.name == name.name)

theorem find?_of_nodup {α β : Type} [BEq β] [LawfulBEq β] {key : α → β} {xs : List α}
    (distinct : (xs.map key).Nodup) {x : α} (member : x ∈ xs) :
    xs.find? (key · == key x) = some x := by
  induction xs with
  | nil => cases member
  | cons first xs ih =>
      obtain ⟨fresh, distinct⟩ := List.nodup_cons.mp distinct
      rcases List.mem_cons.mp member with rfl | later
      · exact List.find?_cons_of_pos (beq_self_eq_true _)
      · have other : key first ≠ key x := fun same => fresh (same ▸ List.mem_map_of_mem later)
        rw [List.find?_cons_of_neg (by simpa using other)]
        exact ih distinct later

/-- If no two methods have one name, every method is the one of its name. -/
theorem TraitDecl.method?_of_mem {t : TraitDecl}
    (distinct : (t.methods.map (·.signature.name.name)).Nodup) {m : Method}
    (member : m ∈ t.methods) : t.method? m.signature.name = some m :=
  find?_of_nodup distinct member

theorem TraitDecl.mem_of_method? {t : TraitDecl} {name : Ident} {m : Method}
    (declared : t.method? name = some m) :
    m ∈ t.methods ∧ m.signature.name.name = name.name := by
  rw [method?] at declared
  exact ⟨List.mem_of_find?_eq_some declared, by simpa using List.find?_some declared⟩

/-! ## Searches -/

/-- Searches of what was made of related lists end at the same place, if they look for the same. -/
theorem find?_of_forall₂ {α β : Type} {related : α → β → Prop} {xs : List α} {ys : List β}
    (all : List.Forall₂ related xs ys) {p : α → Bool} {x : α} (found : xs.find? p = some x) :
    ∃ y, related x y ∧ ∀ {γ : Type} (make : β → γ) (q : γ → Bool),
      (∀ x y, related x y → q (make y) = p x) → (ys.map make).find? q = some (make y) := by
  induction all with
  | nil => cases found
  | @cons first y xs ys one _ ih =>
      cases holds : p first with
      | true =>
          rw [List.find?_cons_of_pos holds] at found
          cases found
          refine ⟨y, one, fun make q same => ?_⟩
          rw [List.map_cons, List.find?_cons_of_pos ((same _ _ one).trans holds)]
      | false =>
          rw [List.find?_cons_of_neg (by simp [holds])] at found
          obtain ⟨y', related, search⟩ := ih found
          refine ⟨y', related, fun make q same => ?_⟩
          rw [List.map_cons, List.find?_cons_of_neg (by simp [same _ _ one, holds])]
          exact search make q same

/-- A name leads to what was made of this log method. -/
structure Companion.Finds (c : Companion) (name : Ident) (l : LogMethod) : Prop where
  module : c.module? name = some l.module
  extension : c.extension? name = some l.extension
  wrapper : c.wrapper? name = some l.wrapper

theorem Companion.Finds.congr {c : Companion} {name other : Ident} {l : LogMethod}
    (finds : c.Finds name l) (same : name.name = other.name) : c.Finds other l := by
  refine ⟨?_, ?_, ?_⟩
  · rw [← finds.module, module?, module?, same]
  · rw [← finds.extension, extension?, extension?, same]
  · rw [← finds.wrapper, wrapper?, wrapper?, same]

/-- **The name of a method leads to what was made of it**, in all three lists. -/
theorem finds_of_expand {t : TraitDecl} {cx : Context} {e : Expansion}
    (accepted : expand t cx = .ok e) {name : Ident} {m : Method}
    (declared : t.method? name = some m) :
    ∃ into args segments, m.Carries args segments ∧ m.IsLogging into args ∧
      e.companion.Finds name (LogMethod.bind m args segments) := by
  have all : List.Forall₂ (fun m l => ∃ into args segments, m.Carries args segments ∧
      m.IsLogging into args ∧ l = LogMethod.bind m args segments) t.methods
      ((t.describe cx).1.methods.map id) :=
    forall_of_expand accepted fun _ into args segments carries logging =>
      ⟨into, args, segments, carries, logging, rfl⟩
  rw [List.map_id] at all
  obtain ⟨_, ⟨into, args, segments, carries, logging, rfl⟩, search⟩ :=
    find?_of_forall₂ all declared
  refine ⟨into, args, segments, carries, logging, ?_⟩
  rw [(methods_of_expand accepted).1]
  -- What a list is searched for is the name that its entries have from the signature.
  refine ⟨search LogMethod.module (·.name.name == name.name) ?_,
    search LogMethod.extension (·.signature.name.name == name.name) ?_,
    search LogMethod.wrapper (·.signature.name.name == name.name) ?_⟩ <;>
  · rintro m _ ⟨_, _, _, _, _, rfl⟩
    rfl

/-! ## Arguments -/

/-- The arguments that the method of the wrapper passes on. -/
def LogMethod.passed (l : LogMethod) (arguments : List Passed) : List Passed :=
  l.wrapper.arguments.filterMap (Scope.ofCall l.wrapper.signature arguments).find?

theorem forall_filterMap {α β : Type} {f : α → Option β} {xs : List α}
    (all : ∀ x ∈ xs, ∃ y, f x = some y) :
    List.Forall₂ (fun x y => f x = some y) xs (xs.filterMap f) := by
  induction xs with
  | nil => exact .nil
  | cons x xs ih =>
      obtain ⟨⟨y, first⟩, others⟩ := List.forall_mem_cons.mp all
      rw [List.filterMap_cons_some first]
      exact .cons first (ih others)

/-- Names that are bound to what they were looked up to lead there again. -/
theorem find?_zip_found {f : Ident → Option Passed}
    (byName : ∀ i j : Ident, i.name = j.name → f i = f j) {names : List Ident}
    {found : List Passed} (all : List.Forall₂ (fun i p => f i = some p) names found)
    {i : Ident} {p : Passed} (value : f i = some p) (member : i ∈ names) :
    Scope.find? ((names.map Ident.name).zip found) i = some p := by
  induction all with
  | nil => cases member
  | @cons j q names found first _ ih =>
      rw [List.map_cons, List.zip_cons_cons, Scope.find?]
      by_cases same : j.name = i.name
      · rw [List.find?_cons_of_pos (by simpa using same)]
        exact (first.symm.trans (byName j i same)).trans value
      · rw [List.find?_cons_of_neg (by simpa using same)]
        rcases List.mem_cons.mp member with rfl | later
        · exact absurd rfl same
        · exact ih later

section Bound

variable {m : Method} {args : MessageArguments} {segments : List Segment}

theorem view_bind (arguments : List Passed) :
    (LogMethod.bind m args segments).extension.view arguments
      = m.signature.idents.filterMap
          (Scope.find? ((m.signature.idents.map Ident.name).zip arguments)) := by
  rw [ExtensionMethod.view, ofCall_eq, LogMethod.extension, parameterNames_bind, idents_plain]
  rfl

theorem passed_bind (arguments : List Passed) :
    (LogMethod.bind m args segments).passed arguments
      = m.signature.idents.filterMap
          (Scope.find? ((m.signature.idents.map Ident.name).zip arguments)) := by
  rw [LogMethod.passed, ofCall_eq, LogMethod.wrapper, parameterNames_bind, idents_plain]
  rfl

/-- **What the wrapper passes on is captured like the arguments themselves.** -/
theorem view_passed {arguments : List Passed}
    (full : arguments.length = m.signature.idents.length) :
    (LogMethod.bind m args segments).extension.view
        ((LogMethod.bind m args segments).passed arguments)
      = (LogMethod.bind m args segments).extension.view arguments := by
  rw [view_bind, view_bind, passed_bind]
  have found := forall_filterMap fun i (member : i ∈ m.signature.idents) =>
    exists_find?_zip full member
  refine filterMap_of_forall ?_
  have each := List.forall₂_iff_get.mp found
  refine List.forall₂_iff_get.mpr ⟨each.1, fun index inNames inFound => ?_⟩
  refine find?_zip_found (fun i j same => ?_) found (each.2 index inNames inFound)
    (List.get_mem _ _)
  rw [Scope.find?, Scope.find?, same]

/-- The arguments are captured in the order of the declaration. -/
theorem view_numbered (distinct : (m.signature.idents.map Ident.name).Nodup)
    {arguments : List Argument} (full : arguments.length = m.signature.idents.length) :
    (LogMethod.bind m args segments).extension.view (Passed.numbered arguments)
      = Passed.numbered arguments := by
  rw [view_bind]
  exact filterMap_of_forall (forall_find? distinct (by rw [numbered_length, full]))

end Bound

/-! ## Calls -/

/-- Each input of a method that can be logged is a parameter. -/
theorem patterns_length {s : Signature} (logging : s.IsLogging) :
    s.patterns.length = s.idents.length := by
  rw [patterns_of_isLogging logging, List.length_map]

def LogMethod.record (l : LogMethod) (arguments : List Passed) : Record :=
  l.module.record l.level (l.extension.view arguments)

section Calls

variable {σ : Type} {c : Companion} {l : LogMethod}

theorem callExtension_logs (finds : c.Finds l.name l) (sink : Logger σ) (state : σ)
    (arguments : List Passed) :
    c.callExtension l.extension sink state arguments
      = (sink.logIf state (l.record arguments)).2 := by
  have module : c.module? l.extension.module = some l.module := finds.module
  have level : (l.record arguments).level = l.extension.level := rfl
  rw [Logger.logIf, level]
  by_cases enabled : sink.isEnabled state l.extension.level = true
  · rw [l.extension.callExtension_view module enabled, if_pos enabled]
    rfl
  · rw [Companion.callExtension, if_neg enabled, if_neg enabled]

theorem callWrapper_logs (finds : c.Finds l.name l) (sink : Logger σ) (state : σ)
    (arguments : List Passed) :
    c.callWrapper l.wrapper sink state arguments
      = (sink.logIf state (l.record (l.passed arguments))).2 := by
  have target : c.extension? l.wrapper.target = some l.extension := finds.extension
  rw [Companion.callWrapper, target]
  exact callExtension_logs finds (sink.through .ref) state (l.passed arguments)

end Calls

/-- **What a call does.**  In both forms the logger is asked for the level of the method, and
is given the record of the call if it wants that level. -/
theorem call_logs {t : TraitDecl} {cx : Context} {e : Expansion}
    (accepted : expand t cx = .ok e) {name : Ident} {m : Method}
    (declared : t.method? name = some m) :
    ∃ into args segments, m.Carries args segments ∧ m.IsLogging into args ∧
      e.companion.Finds name (LogMethod.bind m args segments) ∧
      ∀ {σ : Type} (form : Companion.CallForm) (sink : Logger σ) (state : σ)
        (arguments : List Argument), arguments.length = m.signature.patterns.length →
        e.companion.call? form name sink state arguments
          = some (sink.logIf state
              ((LogMethod.bind m args segments).record (Passed.numbered arguments))).2 := by
  obtain ⟨into, args, segments, carries, logging, finds⟩ := finds_of_expand accepted declared
  refine ⟨into, args, segments, carries, logging, finds, ?_⟩
  intro σ form sink state arguments full
  have own : e.companion.Finds (LogMethod.bind m args segments).name _ :=
    finds.congr (TraitDecl.mem_of_method? declared).2.symm
  cases form with
  | direct =>
      rw [Companion.call?, finds.extension]
      exact congrArg some (callExtension_logs own sink state _)
  | wrapped =>
      rw [patterns_length logging.signature] at full
      rw [Companion.call?, finds.wrapper]
      refine congrArg some ((callWrapper_logs own sink state _).trans ?_)
      rw [LogMethod.record, view_passed (by rw [numbered_length, full])]
      rfl

end LogInterface
