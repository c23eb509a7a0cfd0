/-
# Proofs.Companion.Manifest -- what the list of events denotes

The companion ends with a constant that lists events by paths: through the hidden module and the
module of a method to the constant there, whose value is made of two literals.  Here this is read
as it is written.  `Tree.constant?` follows a path through the items, `Tree.eventId?` reads the two
literals, and `listedEvents` does both for all that the list names.

What is read so is what `Companion.manifest` says (`listedEvents_items`).  Modules and paths come
from two walks over the same methods, and a path is followed by name, so the list is in the order
of the declaration if no two methods have one name (`manifest_declared`).
-/
import LogInterface.Proofs.Companion.Called
import LogInterface.Proofs.Companion.Shadowing
import LogInterface.Proofs.Companion.Unannotated
import LogInterface.Proofs.Interface.EventNumber

namespace LogInterface

open Token Build

set_option autoImplicit false

/-! ## Reading constants -/

namespace Tree

/-- The names of a path in an expression that starts where it stands, without colons. -/
def localNames : Tree → List String
  | .node .pathExpr [.node .path (.node .segment first :: more)] =>
      (Tree.node .segment first :: more).filterMap segmentName?
  | _ => []

def isItem (kind : Kind) (name : String) : Tree → Bool
  | .node own children =>
      own == kind && (declared? (.node own children)).map Ident.name == some name
  | _ => false

/-- The constant that a path leads to from these items, through modules. -/
def constant? : List Tree → List String → Option Tree
  | _, [] => none
  | items, [name] => items.find? (isItem .constItem name)
  | items, name :: names =>
      (items.find? (isItem .modItem name)).bind fun m => constant? m.moduleItems names

def constantValue? : Tree → Option Tree
  | .node .constItem [_, _, _, _, _, _, _, _, value, _] => some value
  | _ => none

def listed? : Tree → Option (List Tree)
  | .node .referenceExpr [_, _, .node .arrayExpr [.group .bracket _ _ content]] =>
      some (elements content)
  | _ => none

/-- The number that a literal denotes. -/
def magnitude? : Tree → Option Nat
  | .node .literal [.token (.literal written _)] => Literal.integer? written
  | _ => none

/-- The number that a literal denotes, with or without a sign. -/
def integer? : Tree → Option Int
  | .node .unary [.token (.punct '-' _ _), t] => t.magnitude?.map fun n : Nat => -(n : Int)
  | t => t.magnitude?.map Int.ofNat

def eventParts? : Tree → Option (Tree × Tree)
  | .node .call [f, .group .parenthesis _ _ arguments] =>
      match elements arguments with
      | [number, name] =>
          if ["EventId", "new"] <:+ f.pathNames then some (number, name) else none
      | _ => none
  | _ => none

/-- The event that an expression denotes.  Its number has 32 bits. -/
def eventId? (t : Tree) : Option EventId := do
  let (number, name) ← t.eventParts?
  let i ← number.integer?
  let s ← name.text?
  if fitsInt i then some ⟨i, s⟩ else none

end Tree

/-- The events that a constant lists, among these items. -/
def listedEvents (items : List Tree) (name : String) : Option (List EventId) := do
  let constant ← Tree.constant? items [name]
  let value ← constant.constantValue?
  let listed ← value.listed?
  listed.mapM fun path => do
    let event ← Tree.constant? items path.localNames
    (← event.constantValue?).eventId?

/-! ## Constants that were generated -/

namespace MethodModule

variable (m : MethodModule) (runtime : List Tree)

def numberTree : Tree :=
  let magnitude := lit (number m.event.natAbs)
  if m.event < 0 then .node .unary (op "-" ++ [magnitude]) else magnitude

/-- The constant is made of the number and the name of the event. -/
theorem eventParts?_eventItem :
    (m.eventItem runtime).constantValue?.bind Tree.eventParts?
      = some (m.numberTree, lit (stringLiteral m.eventName)) := by
  have constructor : ["EventId", "new"] <:+
      (valueOf (inRuntime runtime ["EventId", "new"])).pathNames := by
    show _ <:+ (runtime ++ rooted ["EventId", "new"]).filterMap Tree.segmentName?
    rw [List.filterMap_append]
    exact List.suffix_append _ _
  have arguments : elements (m.numberTree :: op "," ++ [lit (stringLiteral m.eventName)])
      = [m.numberTree, lit (stringLiteral m.eventName)] := by
    unfold numberTree
    split <;> rfl
  show Tree.eventParts? (call (valueOf (inRuntime runtime ["EventId", "new"]))
    (m.numberTree :: op "," ++ [lit (stringLiteral m.eventName)])) = _
  rw [call, bracket, Tree.eventParts?, arguments]
  exact if_pos constructor

theorem integer?_numberTree : m.numberTree.integer? = some m.event := by
  have magnitude : (lit (number m.event.natAbs)).magnitude? = some m.event.natAbs :=
    Literal.integer?_repr _
  rw [numberTree]
  split
  · show ((lit (number m.event.natAbs)).magnitude?.map fun n : Nat => -(n : Int)) = _
    rw [magnitude]
    exact congrArg some (show -(m.event.natAbs : Int) = m.event by omega)
  · show ((lit (number m.event.natAbs)).magnitude?.map Int.ofNat) = _
    rw [magnitude]
    exact congrArg some (show (m.event.natAbs : Int) = m.event by omega)

theorem eventId?_eventItem (fits : fitsInt m.event = true) :
    (m.eventItem runtime).constantValue?.bind Tree.eventId? = some m.eventId := by
  have parts := m.eventParts?_eventItem runtime
  have name : (lit (stringLiteral m.eventName)).text? = some m.eventName :=
    Literal.string?_quotedLiteral _
  obtain ⟨value, isValue, parts⟩ := Option.bind_eq_some_iff.mp parts
  rw [isValue, Option.bind_some, Tree.eventId?, parts]
  simp [m.integer?_numberTree, name, fits]
  rfl

/-- In the constant the number of the event stands in an expression that is read as this id. -/
def ReadsBack (i : Int) : Prop :=
  ∃ number name, (m.eventItem runtime).constantValue?.bind Tree.eventParts? = some (number, name) ∧
    Parser.onAll eventNumber number.tokens .nowhere = .ok ⟨i, .nowhere⟩

/-- The expression for the number is read back as an event id. -/
theorem read_numberTree (fits : fitsInt m.event = true) :
    Parser.onAll eventNumber m.numberTree.tokens .nowhere = .ok ⟨m.event, .nowhere⟩ := by
  refine Parser.onAll_ok_iff.mpr ⟨⟨[], .nowhere, none⟩, eventNumber_ok_iff.mpr ?_, rfl, rfl⟩
  have reads : Literal.integer? (Nat.repr m.event.natAbs) = some m.event.natAbs :=
    Literal.integer?_repr _
  refine ⟨[], ?_, rfl⟩
  unfold numberTree
  split
  · have same : negated 1 m.event.natAbs = m.event := by
      rw [negated, negated]
      omega
    exact ⟨1, by decide, _, .minus (.number reads), by rwa [same], by rw [same]; rfl⟩
  · have same : negated 0 m.event.natAbs = m.event := by
      rw [negated]
      omega
    exact ⟨0, by decide, _, .number reads, by rwa [same], by rw [same]; rfl⟩

theorem readsBack (fits : fitsInt m.event = true) : m.ReadsBack runtime m.event :=
  ⟨_, _, m.eventParts?_eventItem runtime, m.read_numberTree fits⟩

end MethodModule

/-- The imports declare nothing. -/
theorem find?_parentImportItems (needed : Bool) (kind : Kind) (name : String) :
    (parentImportItems needed).find? (Tree.isItem kind name) = none := by
  cases needed with
  | false => rfl
  | true => exact List.find?_cons_of_neg (Bool.eq_false_iff.mp (Bool.and_false _))

namespace Companion

variable (c : Companion)

/-- In the hidden module the name of a method leads to its module. -/
theorem find?_modItem (i : Ident) :
    c.hiddenItem.moduleItems.find? (Tree.isItem .modItem i.name)
      = (c.module? i).map c.moduleTree := by
  have own : Tree.isItem .modItem i.name ∘ c.moduleTree = fun m => m.name.name == i.name := rfl
  show (parentImportItems (nestedRuntime c.runtime).2 ++ c.modules.map c.moduleTree).find? _ = _
  rw [List.find?_append, find?_parentImportItems, Option.none_or, List.find?_map, own]
  rfl

/-- In the module of a method there is one constant. -/
theorem find?_constItem (m : MethodModule) :
    (c.moduleTree m).moduleItems.find? (Tree.isItem .constItem "EVENT")
      = some (m.eventItem (nestedSegments c.runtime)) := by
  show (parentImportItems (nestedRuntime c.runtime).2
    ++ m.eventItem (nestedSegments c.runtime) :: _).find? _ = _
  rw [List.find?_append, find?_parentImportItems, Option.none_or]
  exact List.find?_cons_of_pos rfl

/-- The path in the list leads to the constant in the module of the method. -/
theorem constant?_event (i : Ident) :
    Tree.constant? c.items
        (valueOf (moduleMember (Naming.hiddenModule c.name) i "EVENT")).localNames
      = (c.module? i).map (·.eventItem (nestedSegments c.runtime)) := by
  have hidden : c.items.find? (Tree.isItem .modItem (Naming.hiddenModule c.name).name)
      = some c.hiddenItem :=
    List.find?_cons_of_pos (beq_self_eq_true _)
  show (c.items.find? (Tree.isItem .modItem (Naming.hiddenModule c.name).name)).bind (fun t =>
    (t.moduleItems.find? (Tree.isItem .modItem i.name)).bind fun t =>
      t.moduleItems.find? (Tree.isItem .constItem "EVENT")) = _
  rw [hidden, Option.bind_some, find?_modItem]
  cases c.module? i with
  | none => rfl
  | some m => exact c.find?_constItem m

/-- The constant that lists the events is among the items. -/
theorem constant?_eventsConst :
    Tree.constant? c.items [(Naming.eventsConst c.name).name] = some c.eventsItem := by
  let front := [c.hiddenItem] ++ c.extensionItems ++ c.wrapperItems ++ [c.implementationItem]
  have others : front.find? (Tree.isItem .constItem (Naming.eventsConst c.name).name) = none := rfl
  have items : c.items = front ++ [c.eventsItem] := rfl
  show c.items.find? (Tree.isItem .constItem (Naming.eventsConst c.name).name) = _
  rw [items, List.find?_append, others, Option.none_or]
  exact List.find?_cons_of_pos (beq_self_eq_true _)

/-- **What the list of events denotes**, if every path in it leads somewhere. -/
theorem listedEvents_items (known : ∀ i ∈ c.events, ∃ m, c.module? i = some m)
    (fits : ∀ m ∈ c.modules, fitsInt m.event = true) :
    listedEvents c.items (Naming.eventsConst c.name).name = some c.manifest := by
  let path (i : Ident) : Tree := valueOf (moduleMember (Naming.hiddenModule c.name) i "EVENT")
  have listed : c.eventsItem.constantValue?.bind Tree.listed? = some (c.events.map path) :=
    congrArg some (elements_commaTrees c.events fun _ => rfl)
  have each {i : Ident} {m : MethodModule} (found : c.module? i = some m) :
      ((Tree.constant? c.items (path i).localNames).bind fun t =>
        t.constantValue?.bind Tree.eventId?) = some m.eventId := by
    rw [constant?_event, found]
    exact m.eventId?_eventItem _ (fits m (List.mem_of_find?_eq_some found))
  have all := (forall_filterMap known).imp fun i m found => each found
  obtain ⟨value, isValue, listed⟩ := Option.bind_eq_some_iff.mp listed
  simp only [listedEvents, constant?_eventsConst, Option.bind_eq_bind, Option.bind_some, isValue,
    listed]
  exact mapM_eq_some (List.forall₂_map_left_iff.mpr (List.forall₂_map_right_iff.mpr all))

/-- If no two modules have one name, and the list names them all in their order, the manifest has
the events of the modules in this order. -/
theorem manifest_eq (distinct : (c.modules.map (·.name.name)).Nodup)
    (same : c.events = c.modules.map MethodModule.name) :
    c.manifest = c.modules.map MethodModule.eventId := by
  have found : ∀ m ∈ c.modules, (c.module? ∘ MethodModule.name) m = some m :=
    fun m member => find?_of_nodup distinct member
  rw [manifest, same, List.filterMap_map, List.filterMap_congr found, List.filterMap_some]

end Companion

/-! ## Accepted traits -/

/-- The event that a method declares: the number in its message, and its own name. -/
def Method.Declares (m : Method) (event : EventId) : Prop :=
  ∃ a args, m.attributes.filter Attribute.isMessage = [a] ∧
    MessageArguments.ofTokens a.arguments = .ok args ∧
    event = ⟨args.event.value, m.signature.name.name⟩

section

variable {t : TraitDecl} {cx : Context} {e : Expansion}

theorem declares_of_expand (accepted : expand t cx = .ok e) :
    List.Forall₂ Method.Declares t.methods (e.companion.modules.map MethodModule.eventId) := by
  rw [(methods_of_expand accepted).1]
  show List.Forall₂ _ _ (((t.describe cx).1.methods.map LogMethod.module).map _)
  rw [List.map_map]
  refine forall_of_expand accepted fun m into args segments carries logging => ?_
  obtain ⟨a, single, read⟩ := logging.message
  exact ⟨a, args, single, read, rfl⟩

/-- The events of an accepted trait have 32 bits. -/
theorem fits_of_expand (accepted : expand t cx = .ok e) :
    ∀ m ∈ e.companion.modules, fitsInt m.event = true := by
  intro m member
  obtain ⟨method, -, a, args, -, read, same⟩ :=
    exists_of_forall₂ (declares_of_expand accepted) _ (List.mem_map_of_mem member)
  rw [show m.event = args.event.value from congrArg EventId.number same]
  exact event_fits read

theorem numbers_nodup_of_expand (accepted : expand t cx = .ok e) :
    ((e.companion.modules.map MethodModule.eventId).map EventId.number).Nodup := by
  have distinct := (validate_eq_nil.mp (expand_ok_iff.mp ⟨e, accepted⟩).2).2.2
  rw [(methods_of_expand accepted).1, List.map_map]
  show (((t.describe cx).1.methods.map LogMethod.module).map _).Nodup
  rw [List.map_map]
  exact distinct

theorem events_of_expand (accepted : expand t cx = .ok e) :
    e.companion.events = e.companion.modules.map MethodModule.name := by
  rw [(methods_of_expand accepted).1]
  show _ = ((t.describe cx).1.methods.map LogMethod.module).map _
  rw [List.map_map]
  rfl

end

/-- **What the list of events denotes.**  Every id of 32 bits is written as an expression that is
read back as this id, the negative ones and the least among them.  For an accepted trait without
two methods of one name the constant lists, in the order of the declaration, the number and the
name that each method declares, and no number twice. -/
theorem manifest_declared :
    (∀ (m : MethodModule) (runtime : List Tree), -2147483648 ≤ m.event → m.event ≤ 2147483647 →
      m.ReadsBack runtime m.event) ∧
    ∀ (t : TraitDecl) (cx : Context) (e : Expansion), expand t cx = .ok e →
      (t.methods.map (·.signature.name.name)).Nodup →
      ∃ events : List EventId,
        listedEvents e.companion.items (Naming.eventsConst e.companion.name).name = some events ∧
        List.Forall₂ Method.Declares t.methods events ∧
        (events.map EventId.number).Nodup ∧
        List.Forall₂ (fun (m : MethodModule) event =>
          m.ReadsBack (nestedSegments e.companion.runtime) event.number)
          e.companion.modules events ∧
        events = e.companion.manifest ∧
        (t.Outer → treesTokens e.companion.items = e.companion.tokens) := by
  refine ⟨fun m runtime least most => m.readsBack runtime (fitsInt_iff.mpr ⟨least, most⟩), ?_⟩
  intro t cx e accepted distinct
  rw [← moduleNames_of_expand accepted] at distinct
  have fits := fits_of_expand accepted
  have events := e.companion.manifest_eq distinct (events_of_expand accepted)
  have known : ∀ i ∈ e.companion.events, ∃ m, e.companion.module? i = some m := by
    rw [events_of_expand accepted, List.forall_mem_map]
    exact fun m member => ⟨m, find?_of_nodup distinct member⟩
  refine ⟨e.companion.manifest, e.companion.listedEvents_items known fits, ?_, ?_, ?_, rfl, ?_⟩
  · rw [events]
    exact declares_of_expand accepted
  · rw [events]
    exact numbers_nodup_of_expand accepted
  · rw [events, List.forall₂_map_right_iff, List.forall₂_same]
    exact fun m member => m.readsBack _ (fits m member)
  · exact fun outer => e.companion.items_tokens (docs_outer_of_expand accepted outer)

/-- Two methods with the numbers 7 and 8; and the least number that there is. -/
theorem manifest_declared_sample :
    ∃ e, expand Sample.interface Sample.context = .ok e ∧
      listedEvents e.companion.items "SERVER_EVENTS"
        = some [⟨7, "listening"⟩, ⟨8, "stopped"⟩] ∧
      MethodModule.ReadsBack ⟨⟨"least", .nowhere⟩, -2147483648, [], []⟩ [] (-2147483648) := by
  have checked : ((expand Sample.interface Sample.context).toOption.map fun e =>
      (e.companion.manifest, (Naming.eventsConst e.companion.name).name))
        = some ([⟨7, "listening"⟩, ⟨8, "stopped"⟩], "SERVER_EVENTS") := by decide +kernel
  obtain ⟨e, answered, same⟩ := Option.map_eq_some_iff.mp checked
  obtain ⟨manifest, name⟩ := Prod.mk.inj same
  have accepted := ok_of_toOption answered
  obtain ⟨events, listed, -, -, -, rfl, -⟩ :=
    manifest_declared.2 Sample.interface Sample.context e accepted (by decide)
  rw [manifest, name] at listed
  exact ⟨e, accepted, listed, manifest_declared.1 _ _ (by decide) (by decide)⟩

end LogInterface
