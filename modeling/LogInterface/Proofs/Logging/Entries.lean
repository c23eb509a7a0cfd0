/-
# Proofs.Logging.Entries -- what a bridged entry stands for

The log bridge writes the event and the message of a record as one text, `[name(number)] message`,
and the message may hold anything: brackets, parentheses, the text of another entry.  The text can
still be read in one way only, from its front:

* the name is an identifier, so it ends in front of the first opening parenthesis;
* the number has digits and a sign, so it ends in front of the first closing one, and no two
  numbers are written alike;
* the message is what stands behind the bracket and the blank.

`readEntry` reads it so and finds what was written (`readEntry_entryText`).
-/
import Mathlib
import LogInterface.Proofs.Logging.Unambiguous

namespace LogInterface

open LogInterface.Text

set_option autoImplicit false

/-! ## Entries -/

/-- What an entry is written from, each part by its characters. -/
structure EntryParts where
  name : List Char
  number : List Char
  message : List Char
  deriving DecidableEq, Repr

/-- Reads the text of an entry from its front. -/
def readEntry (text : String) : EntryParts :=
  let named := cutAt '(' (text.toList.drop 1)
  let numbered := cutAt ')' named.2
  ⟨named.1, numbered.1, numbered.2.drop 2⟩

def Record.entryParts (r : Record) : EntryParts :=
  ⟨r.event.name.toList, (Int.repr r.event.number).toList, r.render.toList⟩

theorem closing_notMem_repr (i : Int) : ')' ∉ (Int.repr i).toList := by
  cases i with
  | ofNat n =>
      rw [Int.repr, Nat.toList_repr]
      exact notMem_toDigits (by decide) n
  | negSucc n =>
      rw [Int.repr, String.toList_append, Nat.toList_repr, List.mem_append, not_or]
      exact ⟨by decide, notMem_toDigits (by decide) _⟩

/-- **The text of an entry is read as it was written.** -/
theorem readEntry_entryText {r : Record} (identifier : IsIdentifier r.event.name.toList) :
    readEntry (LogBridge.entryText r) = r.entryParts := by
  have opening : '(' ∉ r.event.name.toList :=
    identifier.notMem (by decide) (by decide) (by decide)
  have shape : (LogBridge.entryText r).toList.drop 1
      = r.event.name.toList ++ '(' :: ((Int.repr r.event.number).toList
          ++ ')' :: ([']', ' '] ++ r.render.toList)) := by
    simp [LogBridge.entryText, EventId.text, String.toList_append]
  rw [readEntry, shape, cutAt_append opening, cutAt_append (closing_notMem_repr _)]
  rfl

/-- Parts that are the same were written from the same event and the same message. -/
theorem Record.entryParts_inj {r s : Record} :
    r.entryParts = s.entryParts ↔ r.event = s.event ∧ r.render = s.render := by
  constructor
  · intro same
    obtain ⟨names, numbers, messages⟩ := EntryParts.mk.inj same
    have number : r.event.number = s.event.number := Int.repr_inj.mp (String.toList_inj.mp numbers)
    have name : r.event.name = s.event.name := String.toList_inj.mp names
    refine ⟨?_, String.toList_inj.mp messages⟩
    calc r.event = ⟨r.event.number, r.event.name⟩ := rfl
      _ = ⟨s.event.number, s.event.name⟩ := by rw [number, name]
      _ = s.event := rfl
  · rintro ⟨events, messages⟩
    rw [Record.entryParts, Record.entryParts, events, messages]

/-- **An entry tells its event and its message.**  Whatever two bridges log of two records whose
events have identifiers for names, the entries have the same text only if number and name of the
events and the messages are the same. -/
theorem entries_tell_apart {r s : Record} (first : IsIdentifier r.event.name.toList)
    (second : IsIdentifier s.event.name.toList) (a b : LogBridge) (before others : List LogEntry) :
    ∃ x y : LogEntry,
      (a.logger.log before r).state = before ++ [x] ∧
      (b.logger.log others s).state = others ++ [y] ∧
      (x.text = y.text ↔ r.event = s.event ∧ r.render = s.render) := by
  refine ⟨a.entry r, b.entry s, rfl, rfl, ?_⟩
  constructor
  · intro same
    have parts : r.entryParts = s.entryParts := by
      rw [← readEntry_entryText first, ← readEntry_entryText second]
      exact congrArg readEntry same
    exact Record.entryParts_inj.mp parts
  · rintro ⟨events, messages⟩
    show LogBridge.entryText r = LogBridge.entryText s
    rw [LogBridge.entryText, LogBridge.entryText, events, messages]

namespace Sample

/-- A record of an event with a message, and without fields. -/
def messageOf (event : EventId) (message : String) : Record :=
  { level := .information, event, fields := .empty, message := .ofText message }

end Sample

/-- A message that looks like the end of another event does not make one. -/
theorem entries_tell_apart_lookalike :
    ∃ x y : LogEntry,
      (({ collector := ⟨none, none, none⟩ } : LogBridge).logger.log []
        (Sample.messageOf ⟨-4, "open"⟩ "5)] [open(-4)] 5")).state = [x] ∧
      (({ collector := ⟨none, none, none⟩ } : LogBridge).logger.log []
        (Sample.messageOf ⟨-45, "open"⟩ "5)] 5")).state = [y] ∧
      x.text ≠ y.text := by
  have word : IsIdentifier "open".toList := .plain (by decide)
  obtain ⟨x, y, first, second, texts⟩ := entries_tell_apart
    (r := Sample.messageOf ⟨-4, "open"⟩ "5)] [open(-4)] 5")
    (s := Sample.messageOf ⟨-45, "open"⟩ "5)] 5") word word
    { collector := ⟨none, none, none⟩ } { collector := ⟨none, none, none⟩ } [] []
  refine ⟨x, y, first, second, fun same => ?_⟩
  have events := (texts.mp same).1
  exact absurd events (by decide)

end LogInterface
