/-
# Proofs.Companion.Forms -- all forms of a call do the same

A method can be called on a logger, on a pointer to one, or on a wrapper around either.  A
pointer hands on what it is asked and given, and so do any number of them (`held_logIf`, by
induction on the pointers).  The wrapper calls the method of the extension trait, which asks for
the level; the wrapper itself does not.  So whatever the form is, the logger at the end is asked
once, for one level, and given the same record if it wants it (`call_forms_agree`).

This is said of loggers that may change when they are asked, where asking twice would show.
-/
import LogInterface.Companion.Wrapper
import LogInterface.Proofs.Companion.Called

namespace LogInterface

set_option autoImplicit false

/-! ## Pointers -/

namespace Held

variable {σ : Type}

/-- Another state behind the same pointers. -/
def replace : Held σ → σ → Held σ
  | .bare _, state => .bare state
  | .behind p inner, state => .behind p (inner.replace state)

@[simp]
theorem state_replace (h : Held σ) (state : σ) : (h.replace state).state = state := by
  induction h with
  | bare => rfl
  | behind p inner ih => exact ih

@[simp]
theorem pointers_replace (h : Held σ) (state : σ) : (h.replace state).pointers = h.pointers := by
  induction h with
  | bare => rfl
  | behind p inner ih => exact congrArg (p :: ·) ih

@[simp]
theorem replace_replace (h : Held σ) (first second : σ) :
    (h.replace first).replace second = h.replace second := by
  induction h with
  | bare => rfl
  | behind p inner ih => exact congrArg (behind p) ih

end Held

namespace StatefulLogger

variable {σ : Type} (l : StatefulLogger σ)

theorem held_ask (h : Held σ) (level : Level) :
    l.held.ask h level = (l.ask h.state level).map h.replace := by
  induction h with
  | bare => rfl
  | behind p inner ih => exact congrArg (Asked.map (Held.behind p)) ih

theorem held_log (h : Held σ) (r : Record) :
    l.held.log h r = (l.log h.state r).map h.replace := by
  induction h with
  | bare => rfl
  | behind p inner ih => exact congrArg (Logged.map (Held.behind p)) ih

/-- **Pointers change nothing**: the logger behind them is asked and given the record. -/
theorem held_logIf (h : Held σ) (r : Record) :
    l.held.logIf h r = (l.logIf h.state r).map h.replace := by
  rw [logIf, logIf, held_ask]
  by_cases enabled : (l.ask h.state r.level).enabled = true
  · rw [if_pos enabled, Asked.map, if_pos enabled, held_log, Held.state_replace]
    simp only [Logged.map, Held.replace_replace]
  · rw [if_neg enabled, Asked.map, if_neg enabled]
    rfl

end StatefulLogger

namespace Logger

variable {σ : Type} (l : Logger σ)

theorem stateful_logIf (state : σ) (r : Record) :
    l.stateful.logIf state r = (l.logIf state r).2 := by
  rw [logIf, StatefulLogger.logIf]
  by_cases enabled : l.isEnabled state r.level = true
  · rw [if_pos enabled]
    exact if_pos enabled
  · rw [if_neg enabled]
    exact if_neg enabled

theorem throughAll_eq (ps : List Pointer) : l.throughAll ps = l := by
  induction ps with
  | nil => rfl
  | cons p ps ih => exact congrArg (through p) ih

end Logger

/-! ## Calls -/

section Calls

variable {σ : Type} {c : Companion} {l : LogMethod}

theorem extensionOn_logs (finds : c.Finds l.name l) (sink : StatefulLogger σ) (state : σ)
    (arguments : List Passed) :
    c.extensionOn l.extension sink state arguments = sink.logIf state (l.record arguments) := by
  have module : c.module? l.extension.module = some l.module := finds.module
  rw [Companion.extensionOn, module]
  rfl

theorem wrapperOn_logs (finds : c.Finds l.name l) (sink : StatefulLogger σ) (w : Wrapper σ)
    (arguments : List Passed) :
    c.wrapperOn l.wrapper sink w arguments
      = (sink.logIf w.logger (l.record (l.passed arguments))).map .new := by
  have target : c.extension? l.wrapper.target = some l.extension := finds.extension
  rw [Companion.wrapperOn, target]
  exact congrArg (Logged.map Wrapper.new) (extensionOn_logs finds sink w.logger _)

end Calls

/-- What the forms of a call on a logger behind some pointers leave behind: the same state of the
logger as a call on the logger itself, and the pointers as they were. -/
structure Companion.FormsAgree (c : Companion) (name : Ident) (arguments : List Argument)
    {σ : Type} (l : StatefulLogger σ) (h : Held σ) (logged : Logged σ) : Prop where
  bare : c.callOn? name l h.state arguments = some logged
  nested : ∃ after, c.callOn? name l.held h arguments = some ⟨after, logged.conversions⟩ ∧
    after.state = logged.state ∧ after.pointers = h.pointers
  /-- Both ways of wrapping give the logger back, before and after the call. -/
  wrapped : ∀ w : Wrapper (Held σ), w = c.into h ∨ w = .new h →
    w.logger = h ∧ w.intoInner = h ∧
      ∃ after, c.callWithin? name l.held w arguments = some ⟨after, logged.conversions⟩ ∧
        after.logger.state = logged.state ∧ after.logger.pointers = h.pointers ∧
        after.intoInner = after.logger
  /-- A logger that stays as it is when it is asked can be called by `call?` instead. -/
  stateless : ∀ k : Logger σ, l = k.stateful → ∀ (form : CallForm) (ps : List Pointer),
    c.call? form name (k.throughAll ps) h.state arguments = some logged

/-- **All forms of a call agree**: for every method of an accepted trait and every logger, with
any pointers around it, the logger is asked for the level of the method, once, and is given one
record if it wants it. -/
theorem call_forms_agree {t : TraitDecl} {cx : Context} {e : Expansion}
    (accepted : expand t cx = .ok e) {name : Ident} {m : Method}
    (declared : t.method? name = some m) :
    ∃ args segments, m.Carries args segments ∧
      ∀ arguments : List Argument, arguments.length = m.signature.patterns.length →
        ∃ r : Record, r.level = args.level ∧
          ∀ {σ : Type} (l : StatefulLogger σ) (h : Held σ),
            e.companion.FormsAgree name arguments l h (l.logIf h.state r) := by
  obtain ⟨into, args, segments, carries, logging, finds, call⟩ := call_logs accepted declared
  refine ⟨args, segments, carries, fun arguments full => ?_⟩
  let record := (LogMethod.bind m args segments).record (Passed.numbered arguments)
  have own : e.companion.Finds (LogMethod.bind m args segments).name _ :=
    finds.congr (TraitDecl.mem_of_method? declared).2.symm
  have count := full.trans (patterns_length logging.signature)
  -- The wrapper passes on what it looks up, and the view looks the same names up again.
  have passed : (LogMethod.bind m args segments).record
      ((LogMethod.bind m args segments).passed (Passed.numbered arguments)) = record := by
    rw [LogMethod.record, view_passed (by rw [numbered_length, count])]
    rfl
  have direct {τ : Type} (l : StatefulLogger τ) (state : τ) :
      e.companion.callOn? name l state arguments = some (l.logIf state record) := by
    rw [Companion.callOn?, finds.extension]
    exact congrArg some (extensionOn_logs own l state _)
  have within {τ : Type} (l : StatefulLogger τ) (w : Wrapper τ) :
      e.companion.callWithin? name l w arguments
        = some ((l.logIf w.logger record).map .new) := by
    rw [Companion.callWithin?, finds.wrapper, ← passed]
    exact congrArg some (wrapperOn_logs own l w _)
  refine ⟨record, rfl, fun l h => ⟨direct l h.state, ?nested, ?wrapped, ?stateless⟩⟩
  case nested =>
    refine ⟨h.replace (l.logIf h.state record).state, ?_, h.state_replace _, h.pointers_replace _⟩
    rw [direct, l.held_logIf]
    rfl
  case wrapped =>
    rintro w (rfl | rfl)
    all_goals
      refine ⟨rfl, rfl, .new (h.replace (l.logIf h.state record).state), ?_, h.state_replace _,
        h.pointers_replace _, rfl⟩
      rw [within]
      exact congrArg (fun x => some (Logged.map Wrapper.new x)) (l.held_logIf h record)
  case stateless =>
    rintro k rfl form ps
    rw [k.throughAll_eq, call form k h.state arguments full, k.stateful_logIf]

theorem call_forms_agree_sample :
    ∃ e m, expand Sample.interface Sample.context = .ok e ∧
      Sample.interface.method? ⟨"listening", .nowhere⟩ = some m ∧
      ∃ args segments, m.Carries args segments ∧
        ∀ arguments : List Argument, arguments.length = m.signature.patterns.length →
          ∃ r : Record, r.level = args.level ∧
            ∀ {σ : Type} (l : StatefulLogger σ) (h : Held σ),
              e.companion.FormsAgree ⟨"listening", .nowhere⟩ arguments l h
                (l.logIf h.state r) := by
  obtain ⟨e, accepted⟩ := Sample.accepted
  exact ⟨e, _, accepted, rfl, call_forms_agree accepted rfl⟩

end LogInterface
