/-
# Proofs.Interface.Slots -- which arguments fill the slots of a message

The arguments of `logger_message` fill three slots: the event id, the level and the template.  An
argument by position fills the slot at its position, one with a name the slot of that name.
`filled` goes through a list of arguments and refuses what comes too late or a second time;
`Arranged` says in one sentence what it accepts: first the first few slots by position, then all
others by name, in any order (`filled_iff_arranged`).
-/
import LogInterface.Interface.Arguments
import Mathlib.Data.List.Perm.Basic

namespace LogInterface

set_option autoImplicit false

/-! ## Arguments -/

/-- What an argument gives. -/
inductive Given where
  | event (n : EventNumber)
  | level (l : Level)
  | message (m : StringLiteral)

def Given.slot : Given → Nat
  | .event _ => 0
  | .level _ => 1
  | .message _ => 2

def Given.keys : Given → List String
  | .event _ => ["id", "event_id"]
  | .level _ => ["level"]
  | .message _ => ["message"]

/-- An argument: what it gives, and the name that stands before it, if there is one. -/
structure MessageArgument where
  key : Option Ident
  value : Given

def MessageArguments.slots (r : MessageArguments) : List Given :=
  [.event r.event, .level r.level, .message r.message]

/-- The arguments fill the slots of `r`: the first few by position and in order, all others by
name. -/
def Arranged (args : List MessageArgument) (r : MessageArguments) : Prop :=
  ∃ positional named, args = positional ++ named ∧
    (∀ a ∈ positional, a.key = none) ∧ (∀ a ∈ named, a.key ≠ none) ∧
    positional.map MessageArgument.value <+: r.slots ∧ (args.map MessageArgument.value).Perm r.slots

/-! ## Slots that were filled -/

namespace PartialMessage

def put (p : PartialMessage) : Given → PartialMessage
  | .event n => { p with event := some n }
  | .level l => { p with level := some l }
  | .message m => { p with message := some m }

def holds (p : PartialMessage) : Given → Bool
  | .event _ => p.event.isSome
  | .level _ => p.level.isSome
  | .message _ => p.message.isSome

def given (p : PartialMessage) : List Given :=
  (p.event.map Given.event).toList ++ (p.level.map Given.level).toList
    ++ (p.message.map Given.message).toList

variable {p q : PartialMessage} {v w : Given}

theorem event_mem_given {n : EventNumber} : .event n ∈ p.given ↔ p.event = some n := by
  simp [given, Option.map_eq_some_iff]

theorem level_mem_given {l : Level} : .level l ∈ p.given ↔ p.level = some l := by
  simp [given, Option.map_eq_some_iff]

theorem message_mem_given {m : StringLiteral} : .message m ∈ p.given ↔ p.message = some m := by
  simp [given, Option.map_eq_some_iff]

/-- What was given tells which slots are filled, and with what. -/
theorem eq_of_given (same : p.given.Perm q.given) : p = q := by
  have event : p.event = q.event :=
    Option.ext fun n => by rw [← event_mem_given, ← event_mem_given, same.mem_iff]
  have level : p.level = q.level :=
    Option.ext fun l => by rw [← level_mem_given, ← level_mem_given, same.mem_iff]
  have message : p.message = q.message :=
    Option.ext fun m => by rw [← message_mem_given, ← message_mem_given, same.mem_iff]
  cases p
  cases q
  cases event
  cases level
  cases message
  rfl

/-- A slot is filled because something was given for it. -/
theorem exists_mem_of_holds (holds : p.holds v = true) : ∃ w ∈ p.given, w.slot = v.slot := by
  cases v with
  | event =>
      obtain ⟨n, some⟩ := Option.isSome_iff_exists.mp holds
      exact ⟨.event n, event_mem_given.mpr some, rfl⟩
  | level =>
      obtain ⟨l, some⟩ := Option.isSome_iff_exists.mp holds
      exact ⟨.level l, level_mem_given.mpr some, rfl⟩
  | message =>
      obtain ⟨m, some⟩ := Option.isSome_iff_exists.mp holds
      exact ⟨.message m, message_mem_given.mpr some, rfl⟩

theorem holds_put : (p.put v).holds w = (v.slot == w.slot || p.holds w) := by
  cases v <;> cases w <;> rfl

theorem given_put (new : p.holds v = false) : (p.put v).given.Perm (v :: p.given) := by
  cases v with
  | event n =>
      have none : p.event = none := Option.not_isSome_iff_eq_none.mp (Bool.eq_false_iff.mp new)
      simp only [given, put, none]
      exact .refl _
  | level l =>
      have none : p.level = none := Option.not_isSome_iff_eq_none.mp (Bool.eq_false_iff.mp new)
      simp only [given, put, none, Option.map_some, Option.map_none, Option.toList_some,
        Option.toList_none, List.append_assoc, List.nil_append, List.singleton_append]
      exact List.perm_middle
  | message m =>
      have none : p.message = none := Option.not_isSome_iff_eq_none.mp (Bool.eq_false_iff.mp new)
      simp only [given, put, none, Option.map_some, Option.map_none, Option.toList_some,
        Option.toList_none, List.append_nil]
      exact List.perm_append_singleton _ _

/-- What fills a new slot can stand anywhere among what was given. -/
theorem append_given_put (new : p.holds v = false) (vs : List Given) :
    (vs ++ (p.put v).given).Perm (v :: (vs ++ p.given)) :=
  ((given_put new).append_left vs).trans List.perm_middle

/-- No slot is filled twice. -/
theorem slots_nodup : (p.given.map Given.slot).Nodup := by
  have within : (p.given.map Given.slot).Sublist [0, 1, 2] := by
    obtain ⟨event, level, message⟩ := p
    cases event <;> cases level <;> cases message <;> simp [given, Given.slot]
  exact within.nodup (by decide)

/-- What would fill a slot once more is not among all that is given in the end. -/
theorem not_perm_of_holds (old : p.holds v = true) (vs : List Given) :
    ¬(v :: (vs ++ p.given)).Perm q.given := by
  intro same
  obtain ⟨w, member, sameSlot⟩ := exists_mem_of_holds old
  have once : ((v :: (vs ++ p.given)).map Given.slot).Nodup :=
    (same.map Given.slot).nodup_iff.mpr slots_nodup
  rw [List.map_cons, List.nodup_cons] at once
  exact once.1 (List.mem_map.mpr ⟨w, List.mem_append_right _ member, sameSlot⟩)

end PartialMessage

/-! ## Going through the arguments -/

/-- What is filled behind one more argument, unless it is refused.  `index` counts the arguments by
position, and `named` says whether one by name came before. -/
def PartialMessage.take (p : PartialMessage) (index : Nat) (named : Bool) (a : MessageArgument) :
    Option PartialMessage :=
  match a.key with
  | some _ => if p.holds a.value then none else some (p.put a.value)
  | none => if named || a.value.slot != index then none else some (p.put a.value)

/-- What is filled behind some arguments, unless one of these is refused. -/
def filled : (index : Nat) → (named : Bool) → PartialMessage → List MessageArgument →
    Option PartialMessage
  | _, _, p, [] => some p
  | index, named, p, a :: as =>
      (p.take index named a).bind fun p =>
        filled (if a.key.isSome then index else index + 1) (named || a.key.isSome) p as

/-- Arguments by position, of which the first fills the slot at `index`, and then arguments by
name. -/
inductive Ordered : (index : Nat) → List MessageArgument → Prop where
  | named {index : Nat} {args : List MessageArgument} :
      (∀ a ∈ args, a.key ≠ none) → Ordered index args
  | positional {index : Nat} {v : Given} {args : List MessageArgument} : v.slot = index →
      Ordered (index + 1) args → Ordered index (⟨none, v⟩ :: args)

section

variable {p q : PartialMessage} {args : List MessageArgument} {index : Nat}

/-- Behind an argument by name all others are by name, and fill other slots. -/
theorem filled_named_iff :
    filled index true p args = some q ↔
      (∀ a ∈ args, a.key ≠ none) ∧ (args.map MessageArgument.value ++ p.given).Perm q.given := by
  induction args generalizing p with
  | nil =>
      rw [filled, Option.some.injEq]
      constructor
      · rintro rfl
        exact ⟨List.forall_mem_nil _, .refl _⟩
      · rintro ⟨-, same⟩
        exact PartialMessage.eq_of_given same
  | cons a args ih =>
      obtain ⟨key, v⟩ := a
      cases key with
      | none => exact iff_of_false nofun fun named => named.1 _ List.mem_cons_self rfl
      | some key =>
          rw [List.forall_mem_cons, List.map_cons, List.cons_append]
          show ((if p.holds v then none else some (p.put v) : Option PartialMessage).bind fun p =>
            filled index true p args) = some q ↔ _
          cases holds : p.holds v with
          | true => exact iff_of_false nofun fun same => p.not_perm_of_holds holds _ same.2
          | false =>
              have moved := PartialMessage.append_given_put holds (args.map MessageArgument.value)
              rw [← moved.congr_left]
              exact ih.trans (and_congr_left' (and_iff_right nofun).symm)

theorem ordered_named {a : MessageArgument} (keyed : a.key ≠ none) :
    Ordered index (a :: args) ↔ ∀ b ∈ a :: args, b.key ≠ none := by
  refine ⟨fun ordered => ?_, .named⟩
  cases ordered with
  | named all => exact all
  | positional => exact absurd rfl keyed

theorem ordered_positional {v : Given} :
    Ordered index (⟨none, v⟩ :: args) ↔ v.slot = index ∧ Ordered (index + 1) args := by
  refine ⟨fun ordered => ?_, fun both => .positional both.1 both.2⟩
  cases ordered with
  | named all => exact absurd rfl (all _ List.mem_cons_self)
  | positional slot rest => exact ⟨slot, rest⟩

/-- An argument by position fills the slot at its position, which is new. -/
theorem filled_iff (upTo : ∀ v, p.holds v = decide (v.slot < index)) :
    filled index false p args = some q ↔
      Ordered index args ∧ (args.map MessageArgument.value ++ p.given).Perm q.given := by
  induction args generalizing p index with
  | nil =>
      show filled index true p [] = some q ↔ _
      rw [filled_named_iff]
      exact and_congr_left' (iff_of_true (List.forall_mem_nil _) (.named (List.forall_mem_nil _)))
  | cons a args ih =>
      obtain ⟨key, v⟩ := a
      cases key with
      | some key =>
          show filled index true p (⟨some key, v⟩ :: args) = some q ↔ _
          rw [filled_named_iff, ordered_named (a := ⟨some key, v⟩) nofun]
      | none =>
          rw [ordered_positional, List.map_cons, List.cons_append]
          show ((if v.slot != index then none else some (p.put v) : Option PartialMessage).bind
            fun p => filled (index + 1) false p args) = some q ↔ _
          by_cases slot : v.slot = index
          · have new : p.holds v = false := by
              rw [upTo, slot]
              exact decide_eq_false (Nat.lt_irrefl index)
            have upTo' (w : Given) : (p.put v).holds w = decide (w.slot < index + 1) := by
              rw [PartialMessage.holds_put, upTo, slot, Bool.eq_iff_iff]
              simp only [Bool.or_eq_true, beq_iff_eq, decide_eq_true_eq]
              omega
            have moved := PartialMessage.append_given_put new (args.map MessageArgument.value)
            rw [← moved.congr_left, if_neg (by simpa using slot), and_iff_right slot]
            exact ih upTo'
          · rw [if_pos (by simpa using slot)]
            exact iff_of_false nofun fun ordered => slot ordered.1.1

theorem ordered_iff :
    Ordered index args ↔ ∃ positional named, args = positional ++ named ∧
      (∀ a ∈ positional, a.key = none) ∧ (∀ a ∈ named, a.key ≠ none) ∧
        positional.map (·.value.slot) = List.range' index positional.length := by
  constructor
  · intro ordered
    induction ordered with
    | named keyed => exact ⟨[], _, rfl, List.forall_mem_nil _, keyed, rfl⟩
    | positional slot _ ih =>
        obtain ⟨positional, named, rfl, keyless, keyed, slots⟩ := ih
        refine ⟨_ :: positional, named, rfl, List.forall_mem_cons.mpr ⟨rfl, keyless⟩, keyed, ?_⟩
        rw [List.map_cons, slots, List.length_cons, List.range'_succ, slot]
  · rintro ⟨positional, named, rfl, keyless, keyed, slots⟩
    induction positional generalizing index with
    | nil => exact .named keyed
    | cons a positional ih =>
        obtain ⟨key, v⟩ := a
        rw [List.forall_mem_cons] at keyless
        obtain ⟨rfl, keyless⟩ := keyless
        rw [List.map_cons, List.length_cons, List.range'_succ, List.cons.injEq] at slots
        exact .positional slots.1 (ih keyless slots.2)

end

/-! ## All slots -/

/-- All slots of `r`, filled. -/
def MessageArguments.complete (r : MessageArguments) : PartialMessage :=
  ⟨some r.event, some r.level, some r.message⟩

theorem MessageArguments.getElem?_slots {r : MessageArguments} {v : Given} (member : v ∈ r.slots) :
    r.slots[v.slot]? = some v := by
  simp only [slots, List.mem_cons, List.not_mem_nil, or_false] at member
  obtain rfl | rfl | rfl := member <;> rfl

/-- Values of the slots in their order are the first of all slots. -/
theorem prefix_slots_iff {r : MessageArguments} {vs : List Given}
    (members : ∀ v ∈ vs, v ∈ r.slots) :
    vs <+: r.slots ↔ vs.map Given.slot = List.range' 0 vs.length := by
  constructor
  · intro first
    have taken : ∀ k ≤ 3, [0, 1, 2].take k = List.range' 0 k := by decide
    have mapped : vs.map Given.slot = (r.slots.map Given.slot).take vs.length := by
      rw [← List.map_take, ← List.prefix_iff_eq_take.mp first]
    exact mapped.trans (taken _ first.length_le)
  · intro slots
    rw [List.prefix_iff_getElem?]
    intro i inside
    have slot : vs[i].slot = i := by
      have same := congrArg (·[i]?) slots
      simpa [inside] using same
    rw [← r.getElem?_slots (members vs[i] (List.getElem_mem inside)), slot]

theorem positional_mem_slots {r : MessageArguments} {positional named : List MessageArgument}
    (all : ((positional ++ named).map MessageArgument.value).Perm r.slots) :
    ∀ v ∈ positional.map MessageArgument.value, v ∈ r.slots := by
  intro v member
  rw [← all.mem_iff, List.map_append]
  exact List.mem_append_left _ member

/-- What is accepted: the first few slots by position, and all others by name. -/
theorem filled_iff_arranged {args : List MessageArgument} {r : MessageArguments} :
    filled 0 false {} args = some r.complete ↔ Arranged args r := by
  have none : ({} : PartialMessage).given = [] := rfl
  have whole : r.complete.given = r.slots := rfl
  rw [filled_iff fun v => by cases v <;> rfl, ordered_iff, none, whole, List.append_nil]
  constructor
  · rintro ⟨⟨positional, named, rfl, keyless, keyed, slots⟩, all⟩
    refine ⟨positional, named, rfl, keyless, keyed, ?_, all⟩
    rw [prefix_slots_iff (positional_mem_slots all), List.map_map, List.length_map]
    exact slots
  · rintro ⟨positional, named, rfl, keyless, keyed, first, all⟩
    refine ⟨⟨positional, named, rfl, keyless, keyed, ?_⟩, all⟩
    rw [prefix_slots_iff (positional_mem_slots all), List.map_map, List.length_map] at first
    exact first

end LogInterface
