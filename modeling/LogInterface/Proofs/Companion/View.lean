/-
# Proofs.Companion.View -- the fields of a view

A view tells how many fields it has and answers each by its index.  Four lists meet in
what is generated for that: the indices and the keys of the arms, the fields that the
arms read, and the variables that a call captures in them.  `FieldArm` and `Setting` are
the arms and the captured variables as data; the generated text is their text
(`fieldTokens_arms`, `capture_settings`).

Every name is looked up where the text looks it up: a variable among the parameters of
the method, a field among those that were set, an index among the arms.  If no two
parameters have one name, every look-up ends at its own place, so a view reports the
parameters in their order with the arguments that were passed for them, and nothing else
(`view_reports`).  The template plays no part in this.
-/
import LogInterface.Companion.Tokens
import LogInterface.Proofs.Companion.Message

namespace LogInterface

open Token

set_option autoImplicit false

/-! ## Arms -/

/-- One arm of the choice of a field: at this index the value of this field is answered
under this key. -/
structure FieldArm where
  index : Nat
  key : String
  field : Ident
  deriving DecidableEq, Repr

namespace FieldArm

def tokens (runtime : List Token) (a : FieldArm) : List Token :=
  number a.index ++ code "=> :: core :: option :: Option :: Some"
    ++ parens
      (within runtime "Field :: new"
        ++ parens (stringLiteral a.key ++ operator "," ++ MethodModule.fieldValue runtime a.field
          ++ operator ","))
    ++ operator ","

/-- The function that chooses a field by its index.  Without arms there is no choice. -/
def choiceTokens (runtime : List Token) : List FieldArm → List Token
  | [] =>
      code "fn field" ++ parens (code "& self , _index : usize") ++ operator "->"
        ++ MethodModule.optionalField runtime ++ braces (code ":: core :: option :: Option :: None")
  | arms =>
      code "fn field" ++ parens (code "& self , index : usize") ++ operator "->"
        ++ MethodModule.optionalField runtime
        ++ braces (code "match index"
          ++ braces (arms.flatMap (tokens runtime)
            ++ code "_ => :: core :: option :: Option :: None ,"))

/-- What the choice answers: the first arm with the index reads its field. -/
def choose (arms : List FieldArm) (self : Scope) (index : Nat) : Option Field :=
  (arms.find? (·.index == index)).bind fun a =>
    (self.find? a.field).map fun p => ⟨a.key, p.argument.value, some p.number⟩

end FieldArm

def MethodModule.arms (x : MethodModule) : List FieldArm :=
  x.fields.zipIdx.map fun (i, index) => ⟨index, i.name, i⟩

theorem MethodModule.fieldTokens_arms (x : MethodModule) (runtime : List Token) :
    x.fieldTokens runtime = FieldArm.choiceTokens runtime x.arms := by
  have written : x.fields.zipIdx.flatMap (fun (field, i) => fieldArm runtime i field)
      = x.arms.flatMap (FieldArm.tokens runtime) := by
    rw [arms, List.flatMap_map]
    rfl
  rw [fieldTokens, written, arms]
  cases x.fields with
  | nil => rfl
  | cons i fields => rfl

/-! ## Captured variables -/

/-- A field of the view that a call sets to one of its variables. -/
structure Setting where
  field : Ident
  source : Ident
  deriving DecidableEq, Repr

namespace Setting

/-- A setting as it is written: the field refers to the variable. -/
def tokens (s : Setting) : List Token := [s.field.token] ++ code ": &" ++ [s.source.token]

/-- The view as it is written, with its settings between braces if there are any. -/
def viewTokens (hidden module : Ident) : List Setting → List Token
  | [] => inModule hidden module "Fields"
  | settings => inModule hidden module "Fields" ++ braces (commas (settings.map tokens))

/-- The fields that are set, each to what its variable stands for. -/
def apply (scope : Scope) (settings : List Setting) : Scope :=
  settings.filterMap fun s => (scope.find? s.source).map fun p => (s.field.name, p)

end Setting

namespace ExtensionMethod

/-- The settings of the view that the method captures its arguments in. -/
def settings (y : ExtensionMethod) : List Setting := y.captures.map fun i => ⟨i, i⟩

theorem capture_settings (y : ExtensionMethod) (hidden : Ident) :
    y.capture hidden = Setting.viewTokens hidden y.module y.settings := by
  rw [capture, settings]
  cases y.captures with
  | nil => rfl
  | cons i captures =>
      have written : (i :: captures).map (fun i => [i.token] ++ code ": &" ++ [i.token])
          = ((i :: captures).map fun i => Setting.mk i i).map Setting.tokens := by
        rw [List.map_map]
        rfl
      rw [written]
      rfl

/-- The arguments in the order of the fields of the view. -/
def view (y : ExtensionMethod) (arguments : List Passed) : List Passed :=
  y.captures.filterMap (Scope.ofCall y.signature arguments).find?

/-- What a call gives to its logger: a record of the view of its arguments. -/
theorem callExtension_view {σ : Type} {c : Companion} {x : MethodModule} {y : ExtensionMethod}
    (module : c.module? y.module = some x) {l : Logger σ} {state : σ}
    (enabled : l.isEnabled state y.level = true) (arguments : List Passed) :
    c.callExtension y l state arguments = l.log state (x.record y.level (y.view arguments)) := by
  rw [Companion.callExtension, if_pos enabled, module, view]

end ExtensionMethod

/-! ## Look-ups -/

theorem idents_plain (s : Signature) : s.plain.idents = s.idents := by
  rw [Signature.idents, Signature.plain, List.filterMap_map, Signature.idents]
  refine List.filterMap_congr fun i _ => ?_
  cases i with
  | receiver => rfl
  | typed _ pattern _ => cases pattern <;> rfl

/-- The parameters of a signature are in scope with the arguments at their places. -/
theorem ofCall_eq (s : Signature) (arguments : List Passed) :
    Scope.ofCall s arguments = (s.idents.map Ident.name).zip arguments := by
  rw [Scope.ofCall, Signature.idents, ← parametersFrom_names 0, List.map_map]
  rfl

/-- If no two names are the same, looking up all of them finds all arguments. -/
theorem forall_find? {names : List Ident} (distinct : (names.map Ident.name).Nodup)
    {arguments : List Passed} (full : arguments.length = names.length) :
    List.Forall₂ (fun i p => Scope.find? ((names.map Ident.name).zip arguments) i = some p)
      names arguments := by
  rw [List.forall₂_iff_get]
  refine ⟨full.symm, fun index inNames inArguments => ?_⟩
  have name : names[index]? = some (names.get ⟨index, inNames⟩) :=
    List.getElem?_eq_getElem inNames
  have argument : arguments[index]? = some (arguments.get ⟨index, inArguments⟩) :=
    List.getElem?_eq_getElem inArguments
  rw [Scope.find?, MethodModule.find?_zip_fields distinct name argument]
  rfl

theorem filterMap_of_forall {α β : Type} {f : α → Option β} {xs : List α} {ys : List β}
    (found : List.Forall₂ (fun x y => f x = some y) xs ys) : xs.filterMap f = ys := by
  induction found with
  | nil => rfl
  | cons first _ ih => rw [List.filterMap_cons_some first, ih]

/-- Setting every field to the variable of its name makes the scope of the names. -/
theorem Setting.apply_names {scope : Scope} {names : List Ident} {arguments : List Passed}
    (found : List.Forall₂ (fun i p => scope.find? i = some p) names arguments) :
    Setting.apply scope (names.map fun i => ⟨i, i⟩) = (names.map Ident.name).zip arguments := by
  rw [Setting.apply, List.filterMap_map]
  induction found with
  | nil => rfl
  | cons first _ ih =>
      rw [List.map_cons, List.zip_cons_cons, ← ih]
      exact List.filterMap_cons_some (by rw [Function.comp_apply, first]; rfl)

/-- The first arm with an index is the arm of the field at that index. -/
theorem find?_arms (x : MethodModule) (index : Nat) :
    x.arms.find? (·.index == index) = x.fields[index]?.map fun i => ⟨index, i.name, i⟩ := by
  have shifted (fields : List Ident) (start index : Nat) :
      ((fields.zipIdx start).map fun (i, n) => FieldArm.mk n i.name i).find?
          (·.index == start + index)
        = fields[index]?.map fun i => ⟨start + index, i.name, i⟩ := by
    induction fields generalizing start index with
    | nil => rfl
    | cons i fields ih =>
        rw [List.zipIdx_cons, List.map_cons]
        cases index with
        | zero => exact List.find?_cons_of_pos (by simp)
        | succ index =>
            rw [List.find?_cons_of_neg (by simp), ← Nat.succ_add_eq_add_succ, ih]
            rfl
  have unshifted := shifted x.fields 0 index
  rwa [Nat.zero_add] at unshifted

/-! ## Reports -/

/-- What a view reports: how many parameters there are, and at the index of each its
name and the argument that was passed for it.  At every other index there is nothing. -/
structure Reports (parameters : List Ident) (arguments : List Argument) (length : Nat)
    (field : Nat → Option Field) : Prop where
  length : length = parameters.length
  inside : ∀ (index : Nat) (i : Ident) (a : Argument), parameters[index]? = some i →
    arguments[index]? = some a → field index = some ⟨i.name, a.value, some index⟩
  outside : ∀ index, parameters.length ≤ index → field index = none

section View

variable {arguments : List Argument}

theorem numbered_getElem? {index : Nat} {a : Argument} (passed : arguments[index]? = some a) :
    (Passed.numbered arguments)[index]? = some ⟨index, a⟩ := by
  rw [Passed.numbered, List.getElem?_map, List.getElem?_zipIdx, passed, Nat.zero_add]
  rfl

theorem numbered_length : (Passed.numbered arguments).length = arguments.length := by
  rw [Passed.numbered, List.length_map, List.length_zipIdx]

/-- The written choice reports the arguments, if every field holds the one at its place. -/
theorem choose_reports {x : MethodModule} (distinct : (x.fields.map Ident.name).Nodup) :
    Reports x.fields arguments x.fields.length
      (FieldArm.choose x.arms ((x.fields.map Ident.name).zip (Passed.numbered arguments))) where
  length := rfl
  inside index i a isField passed := by
    rw [FieldArm.choose, find?_arms, isField, Option.map_some, Option.bind_some, Scope.find?,
      MethodModule.find?_zip_fields distinct isField (numbered_getElem? passed)]
    rfl
  outside index beyond := by
    rw [FieldArm.choose, find?_arms, List.getElem?_eq_none beyond]
    rfl

/-- The fields of the record report the arguments. -/
theorem fieldSet_reports (x : MethodModule) :
    Reports x.fields arguments (x.fieldSet (Passed.numbered arguments)).length
      (x.fieldSet (Passed.numbered arguments)).field where
  length := rfl
  inside index i a isField passed := by
    have slot : (x.fields.zip (Passed.numbered arguments))[index]? = some (i, ⟨index, a⟩) :=
      List.getElem?_zip_eq_some.mpr ⟨isField, numbered_getElem? passed⟩
    rw [FieldSet.field, MethodModule.fieldSet, List.getElem?_map, slot]
    rfl
  outside index beyond := by
    have outOfSlots : (x.fields.zip (Passed.numbered arguments)).length ≤ index := by
      rw [List.length_zip]
      exact (Nat.min_le_left _ _).trans beyond
    rw [FieldSet.field, MethodModule.fieldSet, List.getElem?_map,
      List.getElem?_eq_none outOfSlots]
    rfl

end View

/-! ## Accepted traits -/

/-- The module holds the view of the method, and the method of the extension trait
captures its arguments in it. -/
structure MethodModule.Views (m : Method) (x : MethodModule) (y : ExtensionMethod) : Prop where
  /-- Every input is a field, in the order of the declaration. -/
  fields : m.signature.patterns = x.fields.map .name
  /-- The written length is the number of inputs. -/
  length : x.lenTokens = code "fn len" ++ parens (code "& self") ++ code "-> usize"
    ++ braces (number m.signature.patterns.length)
  choice : ∀ runtime, x.fieldTokens runtime = FieldArm.choiceTokens runtime x.arms
  capture : ∀ hidden, y.capture hidden = Setting.viewTokens hidden y.module y.settings
  /-- A logger that is enabled is given a record of the view of the arguments. -/
  called : ∀ (c : Companion), c.module? y.module = some x → ∀ {σ : Type} (l : Logger σ)
    (state : σ), l.isEnabled state y.level = true → ∀ arguments : List Passed,
      c.callExtension y l state arguments = l.log state (x.record y.level (y.view arguments))
  /-- The written choice reports what is passed for the inputs, once they are captured. -/
  chosen : (x.fields.map Ident.name).Nodup → ∀ arguments : List Argument,
    arguments.length = m.signature.patterns.length →
      Reports x.fields arguments m.signature.patterns.length
        (FieldArm.choose x.arms
          (Setting.apply (Scope.ofCall y.signature (Passed.numbered arguments)) y.settings))
  /-- So do the fields of the record that is logged. -/
  logged : (x.fields.map Ident.name).Nodup → ∀ arguments : List Argument,
    arguments.length = m.signature.patterns.length →
      Reports x.fields arguments (x.fieldSet (y.view (Passed.numbered arguments))).length
        (x.fieldSet (y.view (Passed.numbered arguments))).field

/-- It does, if fields, captured variables and inputs have the same names in the same
order. -/
theorem views_of_names {m : Method} {x : MethodModule} {y : ExtensionMethod}
    (fields : m.signature.patterns = x.fields.map .name) (captures : y.captures = x.fields)
    (inputs : y.signature.idents = x.fields) : MethodModule.Views m x y := by
  have count : m.signature.patterns.length = x.fields.length := by rw [fields, List.length_map]
  have found (distinct : (x.fields.map Ident.name).Nodup) (arguments : List Argument)
      (full : arguments.length = m.signature.patterns.length) :
      List.Forall₂ (fun i p =>
          (Scope.ofCall y.signature (Passed.numbered arguments)).find? i = some p)
        x.fields (Passed.numbered arguments) := by
    rw [ofCall_eq, inputs]
    exact forall_find? distinct (by rw [numbered_length, full, count])
  refine ⟨fields, ?length, x.fieldTokens_arms, y.capture_settings, ?called, ?chosen, ?logged⟩
  case length =>
    rw [count]
    rfl
  case called => exact fun _ module _ _ _ enabled => y.callExtension_view module enabled
  case chosen =>
    intro distinct arguments full
    rw [ExtensionMethod.settings, captures, Setting.apply_names (found distinct arguments full),
      count]
    exact choose_reports distinct
  case logged =>
    intro distinct arguments full
    rw [ExtensionMethod.view, captures, filterMap_of_forall (found distinct arguments full)]
    exact fieldSet_reports x

theorem views_of_bind {m : Method} {args : MessageArguments} {segments : List Segment}
    (logging : m.signature.IsLogging) :
    MethodModule.Views m (LogMethod.bind m args segments).module
      (LogMethod.bind m args segments).extension :=
  views_of_names (module_of_bind logging).fields rfl
    ((idents_plain m.signature).trans (parameterNames_bind m args segments).symm)

/-- **A view reports what its method was called with**: for every method of an accepted
trait whose inputs have names of their own, whatever its template is. -/
theorem view_reports {t : TraitDecl} {cx : Context} {e : Expansion}
    (accepted : expand t cx = .ok e) :
    List.Forall₂ (fun m xy => MethodModule.Views m xy.1 xy.2) t.methods
      (e.companion.modules.zip e.companion.extensions) := by
  rw [(methods_of_expand accepted).1, Interface.companionItems, List.zip_map']
  exact forall_of_expand accepted fun _ _ _ _ _ logging => views_of_bind logging.signature

theorem view_reports_sample :
    ∃ e, expand Sample.interface Sample.context = .ok e ∧
      List.Forall₂ (fun m xy => MethodModule.Views m xy.1 xy.2) Sample.interface.methods
        (e.companion.modules.zip e.companion.extensions) := by
  obtain ⟨e, accepted⟩ := Sample.accepted
  exact ⟨e, accepted, view_reports accepted⟩

end LogInterface
