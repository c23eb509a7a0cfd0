/-
# Proofs.Companion.Session -- no wanted record is lost

A test calls methods on a capturing sink, through one interface or another, and in between it
looks at what the sink holds or takes it out.  `Capture.useAll?` is such a sequence of uses.

The sink keeps every record that it is given.  It is the call that asks for the level first, so
only both together add one record for a wanted call and nothing for another (`use?_adds`).  Over
a whole sequence, what was taken and what is still held are then together what was added, each
record once and in the order of the calls, and to look changes nothing (`no_record_lost`).
-/
import LogInterface.Proofs.Companion.Served

namespace LogInterface

set_option autoImplicit false

/-! ## Uses of a sink -/

/-- A look at what a sink holds. -/
inductive Look where
  | records
  | length
  | isEmpty
  deriving DecidableEq, Repr

/-- One use of a capturing sink. -/
inductive Use where
  | call (k : Served.Call)
  | take
  | look (how : Look)

inductive Answer where
  | called
  | taken (out : List CapturedRecord)
  | records (held : List CapturedRecord)
  | length (n : Nat)
  | isEmpty (b : Bool)
  deriving DecidableEq, Repr

/-- The records that left the sink. -/
def Answer.out : Answer → List CapturedRecord
  | .taken out => out
  | _ => []

def Look.shows (c : Capture) : Look → Answer
  | .records => .records c.records
  | .length => .length c.length
  | .isEmpty => .isEmpty c.isEmpty

namespace Capture

/-- What a use answers, and the sink behind it. -/
def use? (c : Capture) : Use → Option (Answer × Capture)
  | .call k => (k.on? logger c).map fun logged => (.called, logged.state)
  | .take => some (.taken c.take.1, c.take.2)
  | .look how => some (how.shows c, c)

def useAll? (c : Capture) : List Use → Option (List Answer × Capture)
  | [] => some ([], c)
  | use :: uses =>
      match c.use? use with
      | some (answer, next) => (next.useAll? uses).map fun run => (answer :: run.1, run.2)
      | none => none

theorem use?_look {c : Capture} (how : Look) : c.use? (.look how) = some (how.shows c, c) := rfl

theorem useAll?_cons_iff {c final : Capture} {use : Use} {uses : List Use}
    {answers : List Answer} :
    c.useAll? (use :: uses) = some (answers, final) ↔
      ∃ answer next later, c.use? use = some (answer, next) ∧
        next.useAll? uses = some (later, final) ∧ answers = answer :: later := by
  rw [useAll?]
  constructor
  · intro run
    split at run
    case h_1 answer next one =>
      obtain ⟨⟨later, _⟩, others, same⟩ := Option.map_eq_some_iff.mp run
      cases same
      exact ⟨answer, next, later, one, others, rfl⟩
    case h_2 => cases run
  · rintro ⟨answer, next, later, one, others, rfl⟩
    rw [one]
    exact congrArg (Option.map _) others

theorem useAll?_append {c held final : Capture} {before after : List Use}
    {answers later : List Answer} (first : c.useAll? before = some (answers, held))
    (second : held.useAll? after = some (later, final)) :
    c.useAll? (before ++ after) = some (answers ++ later, final) := by
  induction before generalizing c answers with
  | nil =>
      cases first
      exact second
  | cons use before ih =>
      obtain ⟨answer, next, answers, one, others, rfl⟩ := useAll?_cons_iff.mp first
      exact useAll?_cons_iff.mpr ⟨answer, next, answers ++ later, one, ih others, rfl⟩

/-! ## What is added -/

/-- Is the level at or above the least level that the sink wants? -/
def Wants (c : Capture) (level : Level) : Prop :=
  ∃ least, c.least = some least ∧ least.rank ≤ level.rank

theorem isEnabled_iff (c : Capture) (level : Level) : c.isEnabled level = true ↔ c.Wants level := by
  rw [isEnabled, Wants]
  cases c.least with
  | none => simp
  | some least => simp

end Capture

/-- What is kept tells of a call of the method, whose message has these arguments. -/
structure CapturedRecord.Tells (kept : CapturedRecord) (renders : Bool) (m : Method)
    (args : MessageArguments) (arguments : List Argument) : Prop where
  level : kept.level = args.level
  event : kept.event = ⟨args.event.value, m.signature.name.name⟩
  /-- The texts of the arguments in their order, under the names of the parameters. -/
  fields : kept.fields
    = (m.signature.idents.map Ident.name).zip (arguments.map fun a => a.value.text)
  /-- The template with the texts of the arguments in their places. -/
  message : renders = true → ∃ text, kept.message = some text ∧
    Template.expansion (m.signature.text? .plain arguments) args.message.value = some text
  structured : renders = false → kept.message = none

theorem Signature.texts_fields (s : Signature) (arguments : List Argument) :
    (s.fields arguments).map (fun f => (f.name, f.value.text))
      = (s.idents.map Ident.name).zip (arguments.map fun a => a.value.text) := by
  have texts : (arguments.map fun a => a.value.text)
      = (Passed.numbered arguments).map fun p => p.argument.value.text := by
    rw [← numbered_arguments arguments, List.map_map, numbered_arguments]
    rfl
  rw [fields, List.map_map, texts, List.zip_map]
  rfl

theorem captured_tells {m : Method} {args : MessageArguments} {arguments : List Argument}
    {r : Record} (tells : r.Tells m args arguments) (c : Capture) :
    (c.captured r).Tells c.renders m args arguments where
  level := tells.level
  event := tells.event
  fields := by
    show r.fields.toList.map _ = _
    rw [FieldSet.toList, tells.fields, filledSlots_map_some, Signature.texts_fields]
  message renders := ⟨r.render, if_pos renders, tells.message .plain⟩
  structured silent := if_neg (by rw [silent]; exact Bool.false_ne_true)

/-- What a use adds to the records: a call whose level is wanted adds one that tells of it, and
nothing else adds any. -/
def Use.Adds (c : Capture) : Use → List CapturedRecord → Prop
  | .call k, added => ∃ args segments, k.method.Carries args segments ∧
      (c.Wants args.level ∧
          (∃ kept, added = [kept] ∧ kept.Tells c.renders k.method args k.arguments) ∨
        ¬c.Wants args.level ∧ added = [])
  | .take, added | .look _, added => added = []

/-- **One use.**  It is answered, and what was held and what it adds has left the sink or is
held behind it. -/
theorem use?_adds (c : Capture) (use : Use) :
    ∃ answer records added, c.use? use = some (answer, { c with records }) ∧ use.Adds c added ∧
      answer.out ++ records = c.records ++ added := by
  cases use with
  | call k =>
      obtain ⟨args, segments, carries, r, tells, logs⟩ := k.logs
      have level : Capture.logger.isEnabled c r.level = c.isEnabled args.level :=
        congrArg c.isEnabled tells.level
      by_cases wanted : c.Wants args.level
      · have enabled := level.trans ((c.isEnabled_iff _).mpr wanted)
        refine ⟨.called, c.records ++ [c.captured r], [c.captured r], ?_,
          ⟨args, segments, carries, .inl ⟨wanted, _, rfl, captured_tells tells c⟩⟩, rfl⟩
        rw [Capture.use?, logs, Logger.logIf, if_pos enabled]
        rfl
      · have disabled : ¬Capture.logger.isEnabled c r.level = true := by
          rwa [level, c.isEnabled_iff]
        refine ⟨.called, c.records, [], ?_, ⟨args, segments, carries, .inr ⟨wanted, rfl⟩⟩,
          (List.append_nil _).symm⟩
        rw [Capture.use?, logs, Logger.logIf, if_neg disabled]
        rfl
  | take => exact ⟨.taken c.records, [], [], rfl, rfl, rfl⟩
  | look how =>
      refine ⟨how.shows c, c.records, [], rfl, rfl, ?_⟩
      cases how <;> exact (List.append_nil _).symm

/-- A use adds what it does whatever the sink holds. -/
theorem Use.adds_records {c : Capture} {records : List CapturedRecord} {use : Use}
    {added : List CapturedRecord} : use.Adds { c with records } added ↔ use.Adds c added := by
  cases use <;> exact Iff.rfl

/-- **All uses.**  What has left the sink and what it still holds is what it held and what was
added, in the same order. -/
theorem useAll?_adds (c : Capture) (uses : List Use) :
    ∃ answers records kept, c.useAll? uses = some (answers, { c with records }) ∧
      List.Forall₂ (Use.Adds c) uses kept ∧
      answers.flatMap Answer.out ++ records = c.records ++ kept.flatten := by
  -- The sink changes from use to use, but what is added depends on its settings only.
  induction uses generalizing c with
  | nil => exact ⟨[], c.records, [], rfl, .nil, (List.append_nil _).symm⟩
  | cons use uses ih =>
      obtain ⟨answer, held, added, one, adds, conserved⟩ := use?_adds c use
      obtain ⟨answers, records, kept, others, add, conserve⟩ := ih { c with records := held }
      refine ⟨answer :: answers, records, added :: kept, ?run, ?adds, ?conserved⟩
      case run => exact Capture.useAll?_cons_iff.mpr ⟨_, _, _, one, others, rfl⟩
      case adds => exact .cons adds (add.imp fun _ _ => Use.adds_records.mp)
      case conserved =>
        rw [List.flatMap_cons, List.append_assoc, conserve, ← List.append_assoc, conserved,
          List.flatten_cons, List.append_assoc]

theorem Use.Adds.wants {c : Capture} {use : Use} {added : List CapturedRecord}
    (adds : use.Adds c added) {kept : CapturedRecord} (member : kept ∈ added) :
    c.Wants kept.level := by
  cases use with
  | call k =>
      obtain ⟨args, segments, -, ⟨wanted, _, rfl, tells⟩ | ⟨-, rfl⟩⟩ := adds
      · rw [List.mem_singleton.mp member, tells.level]
        exact wanted
      · cases member
  | take | look =>
      cases (show added = [] from adds)
      cases member

theorem wants_of_mem_flatten {c : Capture} {uses : List Use} {kept : List (List CapturedRecord)}
    (adds : List.Forall₂ (Use.Adds c) uses kept) {r : CapturedRecord}
    (member : r ∈ kept.flatten) : c.Wants r.level := by
  induction adds with
  | nil => cases member
  | cons one _ ih =>
      rw [List.flatten_cons] at member
      exact (List.mem_append.mp member).elim one.wants ih

/-! ## Accounts -/

/-- What becomes of the records of some uses. -/
structure Capture.Accounts (c : Capture) (uses : List Use) (answers : List Answer)
    (final : Capture) (kept : List (List CapturedRecord)) : Prop where
  answered : c.useAll? uses = some (answers, final)
  /-- What is wanted and whether the message is written stays as it was. -/
  settings : final = { c with records := final.records }
  adds : List.Forall₂ (Use.Adds c) uses kept
  /-- Nothing that was added is lost or doubled, and the order stays. -/
  conserved : answers.flatMap Answer.out ++ final.records = c.records ++ kept.flatten
  /-- Whatever is held at any time was there before or is wanted. -/
  admitted : ∀ before after, uses = before ++ after →
    ∃ answers held, c.useAll? before = some (answers, held) ∧
      ∀ r ∈ held.records, r ∈ c.records ∨ c.Wants r.level
  /-- A look shows what is held then.  Without it the other answers and the end are the same. -/
  looks : ∀ before how after, uses = before ++ .look how :: after →
    ∃ answers held later, c.useAll? before = some (answers, held) ∧
      c.useAll? uses = some (answers ++ how.shows held :: later, final) ∧
      c.useAll? (before ++ after) = some (answers ++ later, final)

/-- **No record is lost, doubled or let through**: the interfaces of the test suite can be
called, and in whatever order calls are mixed with looks and with taking records out, every
record is accounted for. -/
theorem no_record_lost :
    (∀ source ∈ testedSources, Serves source) ∧
      ∀ (c : Capture) (uses : List Use),
        ∃ answers final kept, c.Accounts uses answers final kept := by
  refine ⟨tested_serve, fun c uses => ?_⟩
  obtain ⟨answers, records, kept, answered, adds, conserved⟩ := useAll?_adds c uses
  refine ⟨answers, _, kept, answered, rfl, adds, conserved, ?admitted, ?looks⟩
  case admitted =>
    rintro before after -
    obtain ⟨answers, records, kept, answered, adds, conserved⟩ := useAll?_adds c before
    refine ⟨answers, _, answered, fun r held => ?_⟩
    have among : r ∈ c.records ++ kept.flatten := conserved ▸ List.mem_append_right _ held
    exact (List.mem_append.mp among).imp_right (wants_of_mem_flatten adds)
  case looks =>
    rintro before how after rfl
    obtain ⟨earlier, held, -, first, -⟩ := useAll?_adds c before
    obtain ⟨later, final, -, second, -⟩ := useAll?_adds { c with records := held } after
    have looked := Capture.useAll?_cons_iff.mpr ⟨_, _, _, Capture.use?_look how, second, rfl⟩
    have whole := Capture.useAll?_append first looked
    cases answered.symm.trans whole
    exact ⟨earlier, _, later, first, whole, Capture.useAll?_append first second⟩

end LogInterface
