/-
# Proofs.Companion.Conversions -- arguments are converted when they are needed

What a call with a capturing sink converts, argument by argument.  A level that is not wanted
costs nothing: the sink stays as it is, whatever was passed.  Otherwise the sink walks over the
fields and converts every argument once, and if it writes the message too, once more for each
placeholder that names the parameter (`calls_convert_exactly`).

The calls are those that the items of the companion say (`perform?_of_expand`).
-/
import LogInterface.Proofs.Companion.Emission
import LogInterface.Proofs.Companion.Record
import Mathlib.Data.List.Nodup

namespace LogInterface

set_option autoImplicit false

/-! ## Fields -/

theorem numbered_numbers (arguments : List Argument) :
    (Passed.numbered arguments).map Passed.number = List.range arguments.length := by
  rw [Passed.numbered, List.map_map, List.range_eq_range']
  exact List.zipIdx_map_snd 0 arguments

/-- The fields of a call convert the arguments one after the other. -/
theorem Signature.conversions_fields {s : Signature} {arguments : List Argument}
    (full : arguments.length = s.idents.length) :
    (s.fields arguments).filterMap Field.argument = List.range arguments.length := by
  have numbers : (s.fields arguments).filterMap Field.argument
      = ((s.idents.zip (Passed.numbered arguments)).map Prod.snd).map Passed.number := by
    rw [fields, List.filterMap_map, List.map_map, ← List.filterMap_eq_map]
    rfl
  rw [numbers, List.map_snd_zip (by rw [numbered_length, full]), numbered_numbers]

/-! ## Calls -/

/-- A call of the method with these arguments converts them as often as the sink needs it. -/
structure Method.Converts (m : Method) (args : MessageArguments) (arguments : List Argument)
    (c : Capture) (logged : Logged Capture) : Prop where
  /-- Nothing is converted for a level that is not wanted, and nothing changes. -/
  unwanted : c.isEnabled args.level = false → logged = ⟨c, []⟩
  /-- The conversions are those of a walk over the fields and of writing the message.  The last
  question of the walk, behind the last field, converts nothing. -/
  conversions : c.isEnabled args.level = true → ∃ r : Record, r.Tells m args arguments ∧
    r.fields.answers = (m.signature.fields arguments).map some ++ [none] ∧
    logged.conversions = r.fields.answers.filterMap (·.bind Field.argument)
      ++ if c.renders then Message.conversions r.message else []
  /-- Every argument is converted once for the fields. -/
  structured : c.isEnabled args.level = true → c.renders = false →
    ∀ index, index < arguments.length → logged.conversions.count index = 1
  /-- And once for each placeholder of its parameter, if the message is written. -/
  rendered : c.isEnabled args.level = true → c.renders = true →
    ∀ (index : Nat) (i : Ident), m.signature.idents[index]? = some i →
      logged.conversions.count index = 1 + (Template.holes args.message.value).count i.name

/-- What a capturing sink converts of a record. -/
theorem converts_of_tells {m : Method} {args : MessageArguments} {arguments : List Argument}
    (full : arguments.length = m.signature.idents.length) {r : Record}
    (tells : r.Tells m args arguments) (c : Capture) :
    m.Converts args arguments c (Capture.logger.logIf c r).2 := by
  have level : Capture.logger.isEnabled c r.level = c.isEnabled args.level :=
    congrArg c.isEnabled tells.level
  have fields : r.fields.toList = m.signature.fields arguments := by
    rw [FieldSet.toList, tells.fields, filledSlots_map_some]
  have logged (enabled : c.isEnabled args.level = true) :
      (Capture.logger.logIf c r).2.conversions = List.range arguments.length
        ++ if c.renders then Message.conversions r.message else [] := by
    rw [Logger.logIf, if_pos (level.trans enabled)]
    show r.fields.conversions ++ _ = _
    rw [FieldSet.conversions, fields, Signature.conversions_fields full]
  have once {index : Nat} (inside : index < arguments.length) :
      (List.range arguments.length).count index = 1 :=
    List.count_eq_one_of_mem List.nodup_range (List.mem_range.mpr inside)
  obtain ⟨answers, conversions⟩ := r.fields.conversions_answers
  refine ⟨fun unwanted => ?unwanted, fun enabled => ?conversions,
    fun enabled silent index inside => ?structured,
    fun enabled renders index i isParameter => ?rendered⟩
  case unwanted =>
    rw [Logger.logIf, if_neg (by rw [level, unwanted]; exact Bool.false_ne_true)]
  case conversions =>
    refine ⟨r, tells, fields ▸ answers, ?_⟩
    rw [conversions, logged enabled, FieldSet.conversions, fields,
      Signature.conversions_fields full]
  case structured =>
    rw [logged enabled, silent, if_neg Bool.false_ne_true, List.append_nil, once inside]
  case rendered =>
    have inside : index < arguments.length := by
      rw [full]
      exact (List.getElem?_eq_some_iff.mp isParameter).1
    rw [logged enabled, renders, if_pos rfl, List.count_append, once inside,
      tells.converts index i isParameter]

/-- **Arguments are converted exactly as often as a capturing sink needs them**: for every method
of an accepted trait whose parameters have names of their own, in both forms of the call.  What is
called is what the generated bodies say, in the items that the tokens of the companion are made
of. -/
theorem calls_convert_exactly {t : TraitDecl} {cx : Context} {e : Expansion}
    (accepted : expand t cx = .ok e) {name : Ident} {m : Method}
    (declared : t.method? name = some m) (distinct : m.signature.Distinct) :
    ∃ args segments, m.Carries args segments ∧
      (∀ (form : Companion.CallForm) (c : Capture) (arguments : List Argument),
        arguments.length = m.signature.patterns.length →
        ∃ logged, e.companion.call? form name Capture.logger c arguments = some logged ∧
          e.companion.perform? e.companion.items form name Capture.logger c arguments
            = some logged ∧
          m.Converts args arguments c logged) ∧
      (t.Outer → treesTokens e.companion.items = e.companion.tokens) := by
  obtain ⟨into, args, segments, carries, logging, -, call⟩ := call_logs accepted declared
  refine ⟨args, segments, carries, fun form c arguments full => ?_, fun outer =>
    e.companion.items_tokens (docs_outer_of_expand accepted outer)⟩
  have answer := call form Capture.logger c arguments full
  refine ⟨_, answer, (perform?_of_expand accepted declared form _ _ _).trans answer, ?_⟩
  rw [patterns_length logging.signature] at full
  exact converts_of_tells full (record_tells carries logging distinct full) c

theorem calls_convert_exactly_sample :
    ∃ e m, expand Sample.interface Sample.context = .ok e ∧
      Sample.interface.method? ⟨"listening", .nowhere⟩ = some m ∧ m.signature.Distinct ∧
      ∃ args segments, m.Carries args segments ∧
        (∀ (form : Companion.CallForm) (c : Capture) (arguments : List Argument),
          arguments.length = m.signature.patterns.length →
          ∃ logged, e.companion.call? form ⟨"listening", .nowhere⟩ Capture.logger c arguments
              = some logged ∧
            e.companion.perform? e.companion.items form ⟨"listening", .nowhere⟩ Capture.logger c
              arguments = some logged ∧
            m.Converts args arguments c logged) ∧
        (Sample.interface.Outer → treesTokens e.companion.items = e.companion.tokens) := by
  obtain ⟨e, accepted⟩ := Sample.accepted
  have distinct : (Sample.method "listening"
      (Sample.message "7" "\x7b\x7b\x7bport\x7d\x7d\x7d at \x7bhost\x7d\x7d:\x7bport\x7d")
      [Sample.parameter "host" "Host", Sample.parameter "r#port" "Port"]).signature.Distinct := by
    decide
  exact ⟨e, _, accepted, rfl, distinct, calls_convert_exactly accepted rfl distinct⟩

end LogInterface
