/-
# Logging.Stateful -- loggers that notice being asked

A `Logger` says whether it wants a level and stays as it is.  One that counts the questions or
lets every second record through does not: asking changes it.  A `StatefulLogger` is any logger
at all.

A pointer to a logger is a logger, too.  It hands the question and the record on to what it
points at.  `Held` is the state of a logger with pointers around it, and `StatefulLogger.held`
is the logger behind them.
-/
import LogInterface.Logging.Logger

namespace LogInterface

set_option autoImplicit false

def Logged.map {σ τ : Type} (f : σ → τ) (x : Logged σ) : Logged τ := ⟨f x.state, x.conversions⟩

/-- What asking for a level does: the answer and the new state. -/
structure Asked (σ : Type) where
  enabled : Bool
  state : σ

def Asked.map {σ τ : Type} (f : σ → τ) (x : Asked σ) : Asked τ := ⟨x.enabled, f x.state⟩

/-- A logger that may change when it is asked. -/
structure StatefulLogger (σ : Type) where
  ask : σ → Level → Asked σ
  log : σ → Record → Logged σ

/-- A logger that stays as it is when it is asked. -/
def Logger.stateful {σ : Type} (l : Logger σ) : StatefulLogger σ :=
  { ask := fun state level => ⟨l.isEnabled state level, state⟩
    log := l.log }

/-- Asks for the level, once, and logs the record if it is wanted. -/
def StatefulLogger.logIf {σ : Type} (l : StatefulLogger σ) (state : σ) (r : Record) : Logged σ :=
  let asked := l.ask state r.level
  if asked.enabled then l.log asked.state r else ⟨asked.state, []⟩

/-! ## Pointers -/

/-- A state behind some pointers. -/
inductive Held (σ : Type) where
  | bare (state : σ)
  | behind (p : Pointer) (inner : Held σ)

namespace Held

variable {σ : Type}

def state : Held σ → σ
  | .bare state => state
  | .behind _ inner => inner.state

/-- The pointers, the outermost first. -/
def pointers : Held σ → List Pointer
  | .bare _ => []
  | .behind p inner => p :: inner.pointers

end Held

namespace StatefulLogger

variable {σ : Type}

def askHeld (l : StatefulLogger σ) : Held σ → Level → Asked (Held σ)
  | .bare state, level => (l.ask state level).map .bare
  | .behind p inner, level => (l.askHeld inner level).map (.behind p)

def logHeld (l : StatefulLogger σ) : Held σ → Record → Logged (Held σ)
  | .bare state, r => (l.log state r).map .bare
  | .behind p inner, r => (l.logHeld inner r).map (.behind p)

def held (l : StatefulLogger σ) : StatefulLogger (Held σ) := ⟨l.askHeld, l.logHeld⟩

end StatefulLogger

end LogInterface
