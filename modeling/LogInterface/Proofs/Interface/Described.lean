/-
# Proofs.Interface.Described -- what a description keeps of its trait

`TraitDecl.describe` leaves two things out of a description: the items that are
no methods, and the methods whose attributes or template cannot be read.  Each of
them leaves a mark instead, a place or a violation.  So a description without
such marks has one log method for each method of the trait, in the same order
(`describeItems_forall`), and each of them is its method with the one message that
the method carries (`describe_ok_iff`).
-/
import LogInterface.Interface.Descriptor
import LogInterface.Proofs.Template.Reading
import Mathlib.Data.List.Forall2

namespace LogInterface

set_option autoImplicit false

/-! ## Parameters -/

/-- The name of an input, if it is a plain parameter. -/
def Input.ident? : Input → Option Ident
  | .typed _ (.name i) _ => some i
  | _ => none

/-- The names of the plain parameters, in their order. -/
def Signature.idents (s : Signature) : List Ident := s.inputs.filterMap Input.ident?

theorem parametersFrom_names (position : Nat) (is : List Input) :
    (parametersFrom position is).map Parameter.name = is.filterMap Input.ident? := by
  induction is generalizing position with
  | nil => rfl
  | cons i is ih =>
      match i with
      | .receiver _ => exact ih _
      | .typed _ (.other _) _ => exact ih _
      | .typed _ (.name i) _ => exact congrArg (i :: ·) (ih _)

/-- A name is bound to nothing exactly if no parameter has it. -/
theorem bindName_parametersFrom {position : Nat} {is : List Input} {name : String} :
    bindName (parametersFrom position is) name = none
      ↔ ∀ i ∈ is.filterMap Input.ident?, i.name ≠ name := by
  rw [bindName, List.findIdx?_eq_none_iff, ← parametersFrom_names position]
  constructor
  · intro silent i member
    obtain ⟨p, isParameter, rfl⟩ := List.mem_map.mp member
    exact ne_of_beq_false (silent p isParameter)
  · intro others p isParameter
    exact beq_false_of_ne (others p.name (List.mem_map_of_mem isParameter))

/-! ## Methods -/

/-- The method carries one message, with these arguments and segments. -/
structure Method.Carries (m : Method) (args : MessageArguments) (segments : List Segment) :
    Prop where
  single : ∃ a, m.attributes.filter Attribute.isMessage = [a] ∧
    MessageArguments.ofTokens a.arguments = .ok args
  parsed : Template.parse args.message.value = .ok segments

/-- A method describes a log method exactly if it carries a message. -/
theorem describe_ok_iff {m : Method} {l : LogMethod} :
    m.describe = .ok l ↔
      ∃ args segments, m.Carries args segments ∧ l = LogMethod.bind m args segments := by
  constructor
  · intro described
    unfold Method.describe at described
    match messages : m.attributes.filter Attribute.isMessage with
    | [] =>
        simp only [messages] at described
        cases described
    | _ :: _ :: _ =>
        simp only [messages] at described
        cases described
    | [a] =>
        simp only [messages, pure_bind] at described
        match read : MessageArguments.ofTokens a.arguments with
        | .error e => simp [read] at described
        | .ok args =>
            simp only [read] at described
            match parsed : Template.parse args.message.value with
            | .error e => simp [parsed] at described
            | .ok segments =>
                simp only [parsed] at described
                cases described
                exact ⟨args, segments, ⟨⟨a, messages, read⟩, parsed⟩, rfl⟩
  · rintro ⟨args, segments, ⟨⟨a, messages, read⟩, parsed⟩, rfl⟩
    simp only [Method.describe, messages, pure_bind, read, parsed]
    rfl

theorem Method.Carries.unique {m : Method} {args args' : MessageArguments}
    {segments segments' : List Segment} (one : m.Carries args segments)
    (other : m.Carries args' segments') : args = args' ∧ segments = segments' := by
  obtain ⟨⟨a, messages, read⟩, parsed⟩ := one
  obtain ⟨⟨a', messages', read'⟩, parsed'⟩ := other
  cases messages.symm.trans messages'
  cases read.symm.trans read'
  cases parsed.symm.trans parsed'
  exact ⟨rfl, rfl⟩

/-! ## Items -/

theorem exists_of_forall₂ {α β : Type} {related : α → β → Prop} {xs : List α} {ys : List β}
    (matched : List.Forall₂ related xs ys) : ∀ y ∈ ys, ∃ x ∈ xs, related x y := by
  induction matched with
  | nil => simp
  | @cons x y xs ys first _ ih =>
      rw [List.forall_mem_cons]
      refine ⟨⟨x, List.mem_cons_self, first⟩, fun y member => ?_⟩
      obtain ⟨x, isIn, both⟩ := ih y member
      exact ⟨x, .tail _ isIn, both⟩

def TraitItem.method? : TraitItem → Option Method
  | .method m => some m
  | .other _ => none

/-- Where an item of a trait starts that is no method. -/
def TraitItem.foreign? : TraitItem → Option Place
  | .method _ => none
  | .other t => some t.place

def TraitDecl.methods (t : TraitDecl) : List Method := t.items.filterMap TraitItem.method?

theorem describeItems_foreign (items : List TraitItem) :
    (describeItems items).foreign = items.filterMap TraitItem.foreign? := by
  fun_induction describeItems items with
  | case1 => rfl
  | case2 m items rest method _ ih => exact ih
  | case3 m items rest v _ ih => exact ih
  | case4 t items rest ih => exact congrArg (t.place :: ·) ih

/-- Every method is described, or it is a violation. -/
theorem describeItems_violations {items : List TraitItem} :
    (describeItems items).violations = []
      ↔ ∀ m ∈ items.filterMap TraitItem.method?, ∃ l, m.describe = .ok l := by
  fun_induction describeItems items with
  | case1 => simp
  | case2 m items rest method described ih =>
      rw [show rest.violations = [] ↔ _ from ih]
      simp [TraitItem.method?, described]
  | case3 m items rest v failed ih => simp [TraitItem.method?, failed]
  | case4 t items rest ih => exact ih

/-- What is listed for the methods of a description is listed for the methods of the trait, where
those that are left out add nothing. -/
theorem describeItems_flatMap {α : Type} (f : LogMethod → List α) (items : List TraitItem) :
    (describeItems items).methods.flatMap f
      = (items.filterMap TraitItem.method?).flatMap fun m => m.describe.toOption.toList.flatMap f := by
  fun_induction describeItems items with
  | case1 => rfl
  | case2 m items rest l described ih =>
      have own : m.describe.toOption.toList.flatMap f = f l := by
        rw [described]
        exact List.flatMap_singleton f l
      exact congrArg₂ (· ++ ·) own.symm ih
  | case3 m items rest v left ih =>
      have none : m.describe.toOption.toList.flatMap f = [] := by
        rw [left]
        rfl
      exact ih.trans (congrArg (· ++ _) none.symm)
  | case4 t items rest ih => exact ih

/-- Every log method of a description is one of the methods of the trait. -/
theorem exists_of_mem_describeItems {items : List TraitItem} {l : LogMethod}
    (member : l ∈ (describeItems items).methods) :
    ∃ m ∈ items.filterMap TraitItem.method?, m.describe = .ok l := by
  fun_induction describeItems items with
  | case1 => cases member
  | case2 m items rest method described ih =>
      rcases List.mem_cons.mp member with rfl | member
      · exact ⟨m, List.mem_cons_self, described⟩
      · obtain ⟨m', isMethod, described'⟩ := ih member
        exact ⟨m', .tail _ isMethod, described'⟩
  | case3 m items rest v failed ih =>
      obtain ⟨m', isMethod, described⟩ := ih member
      exact ⟨m', .tail _ isMethod, described⟩
  | case4 t items rest ih => exact ih member

/-- Every method that can be described is. -/
theorem mem_describeItems {items : List TraitItem} {m : Method} {l : LogMethod}
    (declared : m ∈ items.filterMap TraitItem.method?) (described : m.describe = .ok l) :
    l ∈ (describeItems items).methods := by
  have listed := describeItems_flatMap (fun l => [l]) items
  rw [List.flatMap_singleton'] at listed
  rw [listed, List.mem_flatMap]
  refine ⟨m, declared, ?_⟩
  rw [described]
  exact List.mem_singleton_self l

/-- Every violation of a description is what is wrong with one of the methods of the trait. -/
theorem exists_of_mem_violations {items : List TraitItem} {v : Violation}
    (member : v ∈ (describeItems items).violations) :
    ∃ m ∈ items.filterMap TraitItem.method?, m.describe = .error v := by
  fun_induction describeItems items with
  | case1 => cases member
  | case2 m items rest method described ih =>
      obtain ⟨m', isMethod, left⟩ := ih member
      exact ⟨m', .tail _ isMethod, left⟩
  | case3 m items rest v' left ih =>
      rcases List.mem_cons.mp member with rfl | member
      · exact ⟨m, List.mem_cons_self, left⟩
      · obtain ⟨m', isMethod, left'⟩ := ih member
        exact ⟨m', .tail _ isMethod, left'⟩
  | case4 t items rest ih => exact ih member

/-- Without violations no method is left out and none is moved. -/
theorem describeItems_forall {items : List TraitItem}
    (silent : (describeItems items).violations = []) :
    List.Forall₂ (fun m l => m.describe = .ok l) (items.filterMap TraitItem.method?)
      (describeItems items).methods := by
  fun_induction describeItems items with
  | case1 => exact .nil
  | case2 m items rest method described ih => exact .cons described (ih silent)
  | case3 m items rest v failed ih => cases silent
  | case4 t items rest ih => exact ih silent

/-! ## The annotation -/

/-- The name that the companion of a trait gets: the one that the annotation asks
for, or else one that comes from the trait. -/
inductive Context.Names (cx : Context) (interface : Ident) : Ident → Prop where
  | asked {args : ExtensionArguments} {l : StringLiteral} {companion : Ident} :
      ExtensionArguments.ofTokens cx.arguments = .ok args → args.name = some l →
      (withinLiteral l fun _ => Parser.name) = .ok companion → Names cx interface companion
  | derived {args : ExtensionArguments} :
      ExtensionArguments.ofTokens cx.arguments = .ok args → args.name = none →
      Names cx interface (Naming.companion interface)

theorem names_iff {cx : Context} {interface companion : Ident} :
    cx.Names interface companion ↔
      cx.extensionArguments.2 = [] ∧
        companionOf interface cx.extensionArguments.1.name = (companion, []) := by
  unfold Context.extensionArguments companionOf
  constructor
  · rintro (⟨read, asks, parses⟩ | ⟨read, silent⟩)
    · simp [read, asks, parses]
    · simp [read, silent]
  · rintro ⟨read, named⟩
    match arguments : ExtensionArguments.ofTokens cx.arguments with
    | .error e => simp [arguments] at read
    | .ok args =>
        simp only [arguments] at named
        match asks : args.name with
        | none =>
            simp only [asks] at named
            cases named
            exact .derived arguments asks
        | some l =>
            simp only [asks] at named
            match parses : withinLiteral l fun _ => Parser.name with
            | .error e => simp [parses] at named
            | .ok i =>
                simp only [parses] at named
                cases named
                exact .asked arguments asks parses

/-! ## The trait -/

theorem describe_companion {t : TraitDecl} {cx : Context} {companion : Ident}
    (named : cx.Names t.name companion) : (t.describe cx).1.companion = companion := by
  obtain ⟨-, found⟩ := names_iff.mp named
  exact congrArg Prod.fst found

/-- A trait is described without violations exactly if its annotation names a
companion and every method carries a message. -/
theorem describe_report {t : TraitDecl} {cx : Context} :
    (t.describe cx).2 = [] ↔
      (∃ companion, cx.Names t.name companion) ∧ ∀ m ∈ t.methods, ∃ l, m.describe = .ok l := by
  rw [TraitDecl.methods, ← describeItems_violations]
  simp only [TraitDecl.describe, List.map_eq_nil_iff, List.append_eq_nil_iff, names_iff]
  constructor
  · rintro ⟨⟨read, named⟩, described⟩
    exact ⟨⟨_, read, Prod.ext rfl named⟩, described⟩
  · rintro ⟨⟨companion, read, named⟩, described⟩
    exact ⟨⟨read, congrArg Prod.snd named⟩, described⟩

end LogInterface
