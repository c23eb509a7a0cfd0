/-
# Proofs.Companion.Body -- what the bodies of the methods do

The body of a method of the extension trait has three statements: it asks the logger for a level
and leaves if that is not wanted, it captures its arguments in a view, and it logs a record of the
view.  `LogBody` is what such a body says, read from its statements (`logBody?_statements`), and
`LogBody.run` does it: every name is looked up where the text looks it up, a variable among the
parameters of the method, a field among those that were set.

The body of a method of the wrapper is one call, which `Forward` is read from
(`forward?_item`).  Calling a method as `Companion.callExtension` and `Companion.callWrapper` do
is to do what its body says (`callExtension_run`, `callWrapper_run`).
-/
import LogInterface.Proofs.Companion.Called

namespace LogInterface

open Token Build

set_option autoImplicit false

/-! ## Bodies as data -/

/-- What the body of a method of the extension trait says. -/
structure LogBody where
  /-- The level that the logger is asked for. -/
  asked : Level
  /-- The module of the view. -/
  view : Ident
  /-- What the fields of the view are set to. -/
  settings : List Setting
  /-- The level of the record. -/
  level : Level
  /-- The module of the event. -/
  event : Ident
  deriving DecidableEq, Repr

/-- What the body of a method of the wrapper says: the method that it calls and the variables
that it passes on. -/
structure Forward where
  target : Ident
  passed : List Ident
  deriving DecidableEq, Repr

/-- Does what a body says, with modules that paths lead to. -/
def LogBody.run {σ : Type} (b : LogBody) (module? : Ident → Option MethodModule) (l : Logger σ)
    (state : σ) (scope : Scope) : Logged σ :=
  if l.isEnabled state b.asked then
    match module? b.view, module? b.event with
    | some x, some y =>
        let view := x.fields.filterMap (Setting.apply scope b.settings).find?
        l.log state
          { level := b.level, event := y.eventId, fields := x.fieldSet view
            message := x.message view }
    | _, _ => ⟨state, []⟩
  else ⟨state, []⟩

/-- What a body says of the module and the level of its method. -/
def ExtensionMethod.logBody (y : ExtensionMethod) : LogBody :=
  { asked := y.level, view := y.module, settings := y.settings, level := y.level
    event := y.module }

def WrapperMethod.forward (w : WrapperMethod) : Forward := ⟨w.target, w.arguments⟩

/-! ## Reading bodies -/

namespace Tree

def level? (runtime : List Tree) (t : Tree) : Option Level :=
  if t.pathNames.dropLast = runtime.filterMap segmentName? ++ ["Level"] then
    t.pathNames.getLast?.bind Level.ofName?
  else none

/-- The module in which a path finds a member of this name, below the hidden module. -/
def moduleOf? (hidden : Ident) (member : String) (t : Tree) : Option Ident :=
  match t.pathIdents with
  | [outer, module, name] => if outer = hidden ∧ name.text = member then some module else none
  | _ => none

def leaves : Tree → Bool
  | .node .exprStmt [.node .returnExpr [_, value], _] => value.isAbsent
  | _ => false

/-- The level that a statement asks `self` for, leaving if it is not wanted. -/
def asked? (runtime : List Tree) : Tree → Option Level
  | .node .exprStmt [.node .ifExpr [_, .node .unary [.token (.punct '!' _ _), question],
      .group .brace _ _ [_, statement], other], _] =>
      match question.call? with
      | some (f, [self, level]) =>
          if f.leadsTo runtime ["Logger", "is_enabled"] ∧ self.pathNames = ["self"] ∧
              statement.leaves ∧ other.isAbsent then level.level? runtime
          else none
      | _ => none
  | _ => none

/-- The value that a statement binds to this variable. -/
def bound? (name : String) : Tree → Option Tree
  | .node .letStmt [_, _, .node .identPattern [_, _, .token (.ident text _), _], _,
      .node .list [_, value], _, _] => if text = name then some value else none
  | _ => none

/-- A field that is set to a reference to a variable. -/
def setting? : Tree → Option Setting
  | .node .fieldValue [_, .token (.ident text place), .node .list [_, value]] =>
      (value.referred?.bind variableIdent?).map fun source => ⟨⟨text, place⟩, source⟩
  | _ => none

/-- A view: its module, and what its fields are set to. -/
def view? (hidden : Ident) : Tree → Option (Ident × List Setting)
  | .node .structExpr [path, .group .brace _ _ fields] => do
      return (← path.moduleOf? hidden "Fields", ← (elements fields).mapM setting?)
  | t => (t.moduleOf? hidden "Fields").map (·, [])

/-- The level and the event of a record of the view. -/
def record? (runtime : List Tree) (hidden : Ident) (t : Tree) : Option (Level × Ident) :=
  match t.call? with
  | some (new, [level, event, fields, message]) =>
      if new.leadsTo runtime ["Record", "new"] ∧
          fields.referred?.map pathNames = some ["__fields"] ∧
          message.referred?.map pathNames = some ["__fields"] then
        (level.level? runtime).bind fun level =>
          (event.moduleOf? hidden "EVENT").map fun event => (level, event)
      else none
  | _ => none

/-- The level and the event of the record that a statement gives to `self`. -/
def logged? (runtime : List Tree) (hidden : Ident) : Tree → Option (Level × Ident)
  | .node .exprStmt [logging, _] =>
      match logging.call? with
      | some (f, [self, record]) =>
          if f.leadsTo runtime ["Logger", "log"] ∧ self.pathNames = ["self"] then
            record.referred?.bind (record? runtime hidden)
          else none
      | _ => none
  | _ => none

end Tree

/-- What the statements of a body say: ask, capture, log. -/
def logBody? (runtime : List Tree) (hidden : Ident) : List Tree → Option LogBody
  | [ask, capture, log] => do
      let asked ← ask.asked? runtime
      let (view, settings) ← (← capture.bound? "__fields").view? hidden
      let (level, event) ← log.logged? runtime hidden
      return ⟨asked, view, settings, level, event⟩
  | _ => none

/-- The signature of a method and what its body says. -/
def Method.logBody? (runtime : List Tree) (hidden : Ident) (m : Method) :
    Option (Signature × LogBody) :=
  match m.body with
  | some (.group .brace _ _ statements) =>
      (LogInterface.logBody? runtime hidden statements).map (m.signature, ·)
  | _ => none

/-- The signature of a function, and the call that is its body: of a method of the extension
trait, with the logger behind a reference. -/
def Tree.forward? (extension : Ident) (t : Tree) : Option (Signature × Forward) :=
  match t.function? with
  | some (s, [.node .exprStmt [forwarding, _]]) =>
      match forwarding.call? with
      | some (f, logger :: passed) =>
          match f.pathIdents with
          | [outer, target] =>
              if outer = extension ∧
                  (logger.referred?.bind selfField?).map Ident.name = some "logger" then
                (passed.mapM variableIdent?).map fun names => (s, ⟨target, names⟩)
              else none
          | _ => none
      | _ => none
  | _ => none

/-! ## Reading what is generated -/

theorem level?_levelTree (runtime : List Tree) (l : Level) :
    (levelTree runtime l).level? runtime = some l := by
  have names : (levelTree runtime l).pathNames
      = (runtime.filterMap Tree.segmentName? ++ ["Level"]) ++ [l.name] := by
    have plain : (rooted ["Level", l.name]).filterMap Tree.segmentName? = ["Level", l.name] := by
      cases l <;> rfl
    rw [levelTree, pathNames_inRuntime, plain, List.append_assoc]
    rfl
  rw [Tree.level?, names, List.dropLast_concat, if_pos rfl, List.getLast?_concat]
  exact l.ofName?_name

/-- A path to a member of the module of a method, in a struct literal. -/
theorem moduleOf?_path (hidden module : Ident) (member : String) :
    (Tree.node .path (moduleMember hidden module member)).moduleOf? hidden member = some module :=
  if_pos ⟨rfl, rfl⟩

/-- And as an expression. -/
theorem moduleOf?_valueOf (hidden module : Ident) (member : String) :
    (valueOf (moduleMember hidden module member)).moduleOf? hidden member = some module :=
  moduleOf?_path hidden module member

namespace ExtensionMethod

variable (y : ExtensionMethod) (runtime : List Tree) (hidden : Ident)

theorem view?_captureTree :
    (y.captureTree hidden).view? hidden = some (y.module, y.settings) := by
  unfold captureTree
  by_cases none : y.captures.isEmpty = true
  · rw [if_pos none, settings, List.isEmpty_iff.mp none]
    show (Tree.moduleOf? hidden "Fields" (valueOf _)).map _ = _
    exact congrArg (Option.map (·, [])) (moduleOf?_valueOf hidden y.module "Fields")
  · rw [if_neg none]
    let set (i : Ident) : Tree := .node .fieldValue
      [attributes [], .token i.token, list (op ":" ++ [refTo (valueOf (single [i.token]))])]
    have each : (elements (commaTrees (y.captures.map fun i => [set i]))).mapM Tree.setting?
        = some y.settings := by
      rw [elements_commaTrees _ fun _ => rfl]
      refine mapM_eq_some (List.forall₂_map_left_iff.mpr ?_)
      rw [settings, List.forall₂_map_right_iff, List.forall₂_same]
      exact fun i _ => rfl
    show ((Tree.node .path _).moduleOf? hidden "Fields").bind _ = _
    rw [moduleOf?_path, Option.bind_some]
    show (List.mapM Tree.setting? _).bind _ = _
    rw [each]
    rfl

/-- **What the body of a method says** is its level, its module and its captured arguments. -/
theorem logBody?_statements :
    logBody? runtime hidden (y.statements runtime hidden) = some y.logBody := by
  have path (names : List String) (plain : (rooted names).filterMap Tree.segmentName? = names) :=
    leadsTo_inRuntime runtime names plain
  have level := level?_levelTree runtime y.level
  obtain ⟨ask, capture, log, same⟩ : ∃ ask capture log,
    y.statements runtime hidden = [ask, capture, log] := ⟨_, _, _, rfl⟩
  have asked : ask.asked? runtime = some y.level := by
    cases same
    show (if (valueOf (inRuntime runtime ["Logger", "is_enabled"])).leadsTo runtime
        ["Logger", "is_enabled"] = true ∧ ["self"] = ["self"] ∧ true = true ∧ true = true then
      (levelTree runtime y.level).level? runtime else none) = _
    rw [if_pos ⟨path _ rfl, rfl, rfl, rfl⟩, level]
  have view : (capture.bound? "__fields").bind (Tree.view? hidden) = some (y.module, y.settings) := by
    cases same
    exact y.view?_captureTree hidden
  have logged : log.logged? runtime hidden = some (y.level, y.module) := by
    cases same
    show (if (valueOf (inRuntime runtime ["Logger", "log"])).leadsTo runtime ["Logger", "log"]
        = true ∧ ["self"] = ["self"] then
      (if (valueOf (inRuntime runtime ["Record", "new"])).leadsTo runtime ["Record", "new"] = true ∧
          some ["__fields"] = some ["__fields"] ∧ some ["__fields"] = some ["__fields"] then
        ((levelTree runtime y.level).level? runtime).bind fun level =>
          ((valueOf (moduleMember hidden y.module "EVENT")).moduleOf? hidden "EVENT").map
            fun event => (level, event)
      else none) else none) = _
    rw [if_pos ⟨path _ rfl, rfl⟩, if_pos ⟨path _ rfl, rfl, rfl⟩, level, moduleOf?_valueOf]
    rfl
  obtain ⟨bound, isBound, view⟩ := Option.bind_eq_some_iff.mp view
  simp only [same, logBody?, asked, isBound, view, logged, Option.bind_eq_bind, Option.bind_some]
  rfl

theorem logBody?_method :
    (y.method runtime hidden).logBody? runtime hidden = some (y.signature, y.logBody) := by
  show (logBody? runtime hidden (y.statements runtime hidden)).map _ = _
  rw [logBody?_statements]
  rfl

end ExtensionMethod

/-- **What the body of a method of the wrapper says** is its target and its arguments. -/
theorem WrapperMethod.forward?_item (w : WrapperMethod) (extension : Ident) :
    (w.item extension).forward? extension = some (w.signature, w.forward) := by
  have passed : (elements (commaTrees (w.arguments.map fun i => [valueOf (single [i.token])]))).mapM
      Tree.variableIdent? = some w.arguments := by
    rw [elements_commaTrees _ fun _ => rfl]
    refine mapM_eq_some (List.forall₂_map_left_iff.mpr ?_)
    rw [List.forall₂_same]
    exact fun i _ => rfl
  show (if extension = extension ∧ some "logger" = some "logger" then
    ((elements (commaTrees (w.arguments.map fun i => [valueOf (single [i.token])]))).mapM
      Tree.variableIdent?).map (fun names => (w.signature, Forward.mk w.target names)) else none) = _
  rw [if_pos ⟨rfl, rfl⟩, passed]
  rfl

/-! ## Calls -/

/-- In a view that sets every field to the variable of its name, a field is what the variable
stands for. -/
theorem Setting.find?_apply (scope : Scope) (names : List Ident) (i : Ident) :
    Scope.find? (Setting.apply scope (names.map fun i => ⟨i, i⟩)) i
      = if i.name ∈ names.map Ident.name then scope.find? i else none := by
  induction names with
  | nil => rfl
  | cons j names ih =>
      have byName (same : j.name = i.name) : scope.find? i = scope.find? j := by
        rw [Scope.find?, Scope.find?, same]
      simp only [List.map_cons, List.mem_cons, Setting.apply, List.filterMap_cons]
      cases found : scope.find? j with
      | none =>
          -- Nothing is set, and by this name nothing is there to set later.
          refine ih.trans ?_
          by_cases same : j.name = i.name
          · rw [byName same, found, ite_self, ite_self]
          · simp only [Ne.symm same, false_or]
      | some p =>
          by_cases same : j.name = i.name
          · rw [if_pos (.inl same.symm), byName same, found, Scope.find?]
            exact congrArg (Option.map Prod.snd) (List.find?_cons_of_pos (by simpa using same))
          · simp only [Ne.symm same, false_or]
            rw [← ih, Scope.find?]
            exact congrArg (Option.map Prod.snd) (List.find?_cons_of_neg (by simpa using same))

theorem ExtensionMethod.view_settings {y : ExtensionMethod} (scope : Scope) :
    y.captures.filterMap (Setting.apply scope y.settings).find? = y.captures.filterMap scope.find? := by
  refine List.filterMap_congr fun i member => ?_
  rw [settings, Setting.find?_apply, if_pos (List.mem_map_of_mem member)]

section

variable {σ : Type} {c : Companion}

/-- **Calling a method of the extension trait is doing what its body says**, if its view has the
fields that it captures. -/
theorem callExtension_run {y : ExtensionMethod} {x : MethodModule}
    (module : c.module? y.module = some x) (fields : x.fields = y.captures) (l : Logger σ)
    (state : σ) (arguments : List Passed) :
    c.callExtension y l state arguments
      = y.logBody.run c.module? l state (Scope.ofCall y.signature arguments) := by
  rw [Companion.callExtension, LogBody.run, ExtensionMethod.logBody]
  simp only [module, fields, ExtensionMethod.view_settings]
  rfl

end

end LogInterface
