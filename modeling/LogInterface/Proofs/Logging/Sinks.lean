/-
# Proofs.Logging.Sinks -- three sinks see the same fields

The bridge to key-value pairs, the capturing sink and the trace bridge each read the
fields of a record by themselves and write the values in their own way: as values of
pairs, as texts for people, and as texts for a reader of debugging output.
`sinks_agree` says that for lawful fields nothing is dropped, moved or added on one of
these ways, and that a pair has the text that is captured, but for what is absent and
for a path that is not text: those are null in a pair, and only there.
-/
import LogInterface.Logging.Bridge
import LogInterface.Proofs.Logging.Fields

namespace LogInterface

open LogInterface.Format

set_option autoImplicit false

/-! ## Values with nothing asked for -/

@[simp]
theorem Spec.pad_plain (s : String) : Spec.plain.pad s = s := by
  simp [Spec.pad, Spec.textChars, Spec.fillChars, Spec.plain]

@[simp]
theorem Spec.integer_plain (i : Int) : Spec.plain.integer i = Int.repr i := by
  cases i with
  | ofNat n => rfl
  | negSucc n =>
    rw [Spec.integer, Spec.sign, if_pos (decide_eq_true (Int.negSucc_lt_zero n))]
    exact String.ofList_append

/-- A pair has the text of the value it was made from, unless it is null. -/
theorem FieldValue.text_pairValue {v : FieldValue} (present : v ≠ .absent)
    (isText : ∀ bytes, v ≠ .path bytes) : v.pairValue.text = some v.text := by
  cases v with
  | absent => exact absurd rfl present
  | path bytes => exact absurd rfl (isText bytes)
  | _ => simp [FieldValue.pairValue, PairValue.text, FieldValue.text, FieldValue.display] <;> rfl

/-! ## One record -/

/-- An entry with pairs, a captured record and a written text show the same fields:
under the same names in the same order, and with the same texts but for what is null. -/
structure ShowSame (fields : List Field) (entry : LogEntry) (captured : CapturedRecord)
    (shown : String) : Prop where
  pairNames : entry.pairs.map Prod.fst = fields.map Field.name
  pairCount : entry.count = entry.pairs.length
  capturedNames : captured.fields.map Prod.fst = fields.map Field.name
  shownText : shown = " ".intercalate (fields.map fun f => f.name ++ "=" ++ f.value.debug .plain)
  texts (i : Nat) (f : Field) : fields[i]? = some f →
    f.value ≠ .absent → (∀ bytes, f.value ≠ .path bytes) →
      ∃ (value : PairValue) (text : String), entry.pairs[i]? = some (f.name, value) ∧
        captured.fields[i]? = some (f.name, text) ∧ value.text = some text

theorem showSame {r : Record} (lawful : r.fields.Lawful) (b : LogBridge) (c : Capture) :
    ShowSame r.fields.toList (b.entry r) (c.captured r) r.fields.text where
  pairNames := List.map_map ..
  pairCount := lawful.length_toList.symm.trans (List.length_map _).symm
  capturedNames := List.map_map ..
  shownText := rfl
  texts i f atIndex present isText := by
    refine ⟨f.value.pairValue, f.value.text, ?_, ?_, FieldValue.text_pairValue present isText⟩
    · exact (List.getElem?_map ..).trans (congrArg (Option.map _) atIndex)
    · exact (List.getElem?_map ..).trans (congrArg (Option.map _) atIndex)

/-- The trace bridge is asked only for what is wanted; its event has the shown text. -/
theorem sinks_agree {r : Record} (lawful : r.fields.Lawful) (b : LogBridge)
    (entries : List LogEntry) (c : Capture) (most : Option TraceLevel)
    (events : List TraceEvent) :
    ∃ (fields : List Field) (entry : LogEntry) (captured : CapturedRecord) (shown : String),
      (fields.length = r.fields.length ∧ ∀ i, fields[i]? = r.fields.field i) ∧
      (b.logger.log entries r).state = entries ++ [entry] ∧
      (Capture.logger.log c r).state.records = c.records ++ [captured] ∧
      r.fields.text = shown ∧
      (r.level.traceLevel.within most → ∃ event,
        ((traceBridge most).log events r).state = events ++ [event] ∧
          event.fields.lookup "fields" = some (.formatted shown)) ∧
      ShowSame fields entry captured shown := by
  have traced (wanted : r.level.traceLevel.within most) :
      ((traceBridge most).log events r).state = events ++ [r.traceEvent] :=
    congrArg Logged.state (if_pos wanted)
  exact ⟨r.fields.toList, b.entry r, c.captured r, r.fields.text,
    ⟨lawful.length_toList, lawful.toList_getElem?⟩, rfl, rfl, rfl,
    fun wanted => ⟨r.traceEvent, traced wanted, rfl⟩, showSame lawful b c⟩

namespace Sample

/-- A text, a number, and nothing. -/
def fields : List Field :=
  [⟨"host", .str "a b", none⟩, ⟨"port", .u64 8080, none⟩, ⟨"user", .absent, none⟩]

def record : Record :=
  { level := .warning
    event := ⟨7, "connect"⟩
    fields := ⟨fields.length, fields.map some⟩
    message := .ofText "no answer" }

end Sample

theorem sinks_agree_sample :
    Sample.record.fields.Lawful ∧
    ∃ (entry : LogEntry) (captured : CapturedRecord) (shown : String),
      ((LogBridge.mk ⟨some .trace, none, none⟩ "t").logger.log [] Sample.record).state = [entry] ∧
      (Capture.logger.log .all Sample.record).state.records = [captured] ∧
      ((traceBridge (some .trace)).log [] Sample.record).state.map
        (fun event => event.fields.lookup "fields") = [some (.formatted shown)] ∧
      ShowSame Sample.fields entry captured shown := by
  have lawful := FieldSet.lawful_ofFields Sample.fields
  obtain ⟨fields, entry, captured, shown, ⟨-, atIndex⟩, bridged, kept, -, traced, same⟩ :=
    @sinks_agree Sample.record lawful ⟨⟨some .trace, none, none⟩, "t"⟩ [] .all (some .trace) []
  obtain ⟨event, emitted, text⟩ := traced rfl
  obtain rfl : fields = Sample.fields := by
    rw [← filledSlots_map_some Sample.fields]
    exact List.ext_getElem? fun i => (atIndex i).trans (lawful.toList_getElem? i).symm
  refine ⟨lawful, entry, captured, shown, bridged, kept, ?_, same⟩
  rw [emitted]
  exact congrArg (fun value => [value]) text

end LogInterface
