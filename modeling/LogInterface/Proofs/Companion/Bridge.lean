/-
# Proofs.Companion.Bridge -- what a bridge does not hand on

The bridge to key-value pairs hands a record on as a text with the message in it and as one pair
for each field.  A pair is null for what is absent, and for a path that is not text: its text
would have to be made first, and the message is said to have it.

The message has it if the template has a placeholder for the parameter (`Record.Tells.occurs`),
and then nothing is lost.  A parameter without one is a field and nothing else, so its path is
neither in the pairs nor in the text (`hidden_path_lost`).  This is the only loss
(`nulls_explained`).
-/
import LogInterface.Proofs.Companion.Served
import LogInterface.Proofs.Logging.Sinks

namespace LogInterface

set_option autoImplicit false

/-! ## Pairs -/

structure PairValue.Tells (pair : PairValue) (v : FieldValue) : Prop where
  null : pair = .null ↔ v = .absent ∨ ∃ bytes, v = .path bytes
  text : pair ≠ .null → pair.text = some v.text

theorem pairValue_tells (v : FieldValue) : v.pairValue.Tells v := by
  have null : v.pairValue = .null ↔ v = .absent ∨ ∃ bytes, v = .path bytes := by
    cases v <;> simp [FieldValue.pairValue]
  refine ⟨null, fun kept => FieldValue.text_pairValue (fun isAbsent => ?_) fun bytes isPath => ?_⟩
  · exact kept (null.mpr (.inl isAbsent))
  · exact kept (null.mpr (.inr ⟨bytes, isPath⟩))

/-! ## Entries -/

/-- The entry tells of a call of the method, whose message has these arguments. -/
structure LogEntry.Tells (entry : LogEntry) (m : Method) (args : MessageArguments)
    (arguments : List Argument) (message : String) : Prop where
  expands : Template.expansion (m.signature.text? .plain arguments) args.message.value
    = some message
  text : entry.text
    = "[" ++ (EventId.mk args.event.value m.signature.name.name).text ++ "] " ++ message
  names : entry.pairs.map Prod.fst = m.signature.idents.map Ident.name
  /-- Every argument has a pair under the name of its parameter. -/
  pairs : ∀ (index : Nat) (i : Ident) (a : Argument), m.signature.idents[index]? = some i →
    arguments[index]? = some a →
      ∃ pair, entry.pairs[index]? = some (i.name, pair) ∧ pair.Tells a.value
  /-- A null pair stands for what is absent, for what the message has, or for a path that is not
  text and has no placeholder. -/
  nulls : ∀ (index : Nat) (i : Ident) (a : Argument), m.signature.idents[index]? = some i →
    arguments[index]? = some a → entry.pairs[index]? = some (i.name, .null) →
      a.value = .absent ∨ a.value.text.toList <:+: message.toList ∨
        (∃ bytes, a.value = .path bytes) ∧ i.name ∉ Template.holes args.message.value

theorem entry_tells {m : Method} {args : MessageArguments} {arguments : List Argument}
    (full : arguments.length = m.signature.idents.length) {r : Record}
    (tells : r.Tells m args arguments) (b : LogBridge) :
    (b.entry r).Tells m args arguments r.render := by
  have pairs : (b.entry r).pairs
      = (m.signature.fields arguments).map fun f => (f.name, f.value.pairValue) := by
    show r.fields.toList.map _ = _
    rw [FieldSet.toList, tells.fields, filledSlots_map_some]
  have pairAt {index : Nat} {i : Ident} {a : Argument}
      (isParameter : m.signature.idents[index]? = some i) (passed : arguments[index]? = some a) :
      (b.entry r).pairs[index]? = some (i.name, a.value.pairValue) := by
    rw [pairs, List.getElem?_map, m.signature.fields_getElem? isParameter passed]
    rfl
  refine ⟨tells.message .plain, ?text, ?names,
    fun index i a isParameter passed => ⟨_, pairAt isParameter passed, pairValue_tells _⟩,
    fun index i a isParameter passed isNull => ?nulls⟩
  case text =>
    rw [← tells.event]
    rfl
  case names =>
    rw [pairs, List.map_map, ← m.signature.fields_names full]
    rfl
  case nulls =>
    have null : a.value.pairValue = .null := by
      simpa [pairAt isParameter passed] using isNull
    rcases (pairValue_tells a.value).null.mp null with isAbsent | isPath
    · exact .inl isAbsent
    · by_cases hole : i.name ∈ Template.holes args.message.value
      · exact .inr (.inl (tells.occurs index i a isParameter passed hole))
      · exact .inr (.inr ⟨isPath, hole⟩)

/-- **A bridge loses only paths**, and of those only such that are not text and have no
placeholder: for every call of a method, the collector gets one entry that tells of it, if it
wants the level. -/
theorem nulls_explained (k : Served.Call) (b : LogBridge) :
    ∃ args segments, k.method.Carries args segments ∧
      ∃ entry message, LogEntry.Tells entry k.method args k.arguments message ∧
        ∀ entries, (k.on? b.logger entries).map Logged.state
          = some (if b.collector.isEnabled args.level.traceLevel b.target then entries ++ [entry]
              else entries) := by
  obtain ⟨args, segments, carries, r, tells, logs⟩ := k.logs
  refine ⟨args, segments, carries, b.entry r, r.render, entry_tells k.length_idents tells b,
    fun entries => ?_⟩
  have level : b.logger.isEnabled entries r.level
      = b.collector.isEnabled args.level.traceLevel b.target :=
    congrArg (fun level : Level => b.collector.isEnabled level.traceLevel b.target) tells.level
  rw [logs, Option.map_some, Logger.logIf, level]
  split <;> rfl

/-! ## A lost path -/

theorem catalogued?_eq {name source : String} {f : SourceFile} {t : TraitDecl} {e : Expansion}
    (listed : catalogue.find? (·.1 == name) = some (name, source))
    (parses : SourceFile.ofSource source = .ok f) (first : f.firstTrait? = some t)
    (accepted : (expand t (Settings.context {} false t)).toOption = some e) :
    catalogued? name = some e.companion := by
  have file : (SourceFile.ofSource source).toOption = some f := by
    rw [parses]
    rfl
  rw [catalogued?, listed, Option.bind_eq_bind, Option.bind_some]
  simp only [file, first, accepted, Option.bind_eq_bind, Option.bind_some]
  rfl

namespace Sample

/-- A collector that wants everything. -/
def bridge : LogBridge := { collector := { most := some .trace } }

def hiddenArguments : List Argument := [.path [0xff], .bool true]

/-- The call of a method whose template has no placeholder. -/
def hiddenCall (c : Companion) : Option (Logged (List LogEntry)) :=
  c.call? .direct ⟨"hidden", .nowhere⟩ bridge.logger [] hiddenArguments

/-- Is the path null in the pairs, and the message the template? -/
def losesPath (f : SourceFile) : Bool :=
  ((f.firstTrait?.bind fun t => (expand t (Settings.context {} false t)).toOption).bind
    fun e => hiddenCall e.companion).any fun logged =>
      match logged.state with
      | [entry] => entry.text == "[hidden(106)] only fields"
          && entry.pairs.map (fun pair => (pair.1, pair.2.kind))
            == [("fn", "null"), ("match", "bool")]
      | _ => false

end Sample

set_option maxRecDepth 100000 in
/-- The pair of the path is null, the path is there, and its text is not in the message. -/
theorem hidden_path_lost :
    ∃ c entry, catalogued? "IProbe" = some c ∧
      (Sample.hiddenCall c).map Logged.state = some [entry] ∧
      entry.pairs.map (fun pair => (pair.1, pair.2.kind)) = [("fn", "null"), ("match", "bool")] ∧
      (Argument.path [0xff]).value = .path [0xff] ∧
      entry.text = "[hidden(106)] only fields" ∧
      ¬(Argument.path [0xff]).value.text.toList <:+: entry.text.toList := by
  obtain ⟨f, parses, loses⟩ :=
    exists_file_of_check probeSource Sample.losesPath rfl (by decide +kernel)
  obtain ⟨⟨_, _⟩, called, loses⟩ := (Option.any_eq_true _ _).mp loses
  obtain ⟨e, expanded, called⟩ := Option.bind_eq_some_iff.mp called
  obtain ⟨t, first, accepted⟩ := Option.bind_eq_some_iff.mp expanded
  split at loses
  case h_2 => cases loses
  case h_1 entry entries =>
    simp only [Bool.and_eq_true, beq_iff_eq] at loses
    obtain ⟨text, pairs⟩ := loses
    have catalogued : catalogued? "IProbe" = some e.companion := by
      have listed : catalogue.find? (·.1 == "IProbe") = some ("IProbe", probeSource) := rfl
      exact catalogued?_eq listed parses first accepted
    have isPath : (Argument.path [0xff]).value = .path [0xff] := by
      rw [Argument.value, (by decide +kernel : Text.ofBytes? [0xff] = none)]
    have lossy : (Argument.path [0xff]).value.text.toList = ['\ufffd'] := by decide +kernel
    have apart : '\ufffd' ∉ "[hidden(106)] only fields".toList := by decide
    refine ⟨e.companion, entry, catalogued, ?_, pairs, isPath, text, fun occurs => ?_⟩
    · rw [called, ← entries]
      rfl
    · rw [lossy, text] at occurs
      exact apart (occurs.subset (List.mem_singleton_self _))

end LogInterface
