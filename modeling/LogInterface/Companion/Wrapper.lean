/-
# Companion.Wrapper -- the wrapper as a value

The wrapper holds a logger, of which only its state matters here, and gives it back.  A method
of the interface is called on the wrapper and calls the method of the extension trait on the
logger inside.

`callOn?` and `callWithin?` are the two forms of a call by name, for any logger.  For one that
stays as it is when it is asked, `Companion.call?` is the same.
-/
import LogInterface.Companion.Call
import LogInterface.Logging.Stateful

namespace LogInterface

set_option autoImplicit false

/-- The wrapper around a logger. -/
structure Wrapper (L : Type) where
  inner : L

namespace Wrapper

variable {L : Type}

def new (logger : L) : Wrapper L := ⟨logger⟩

def logger (w : Wrapper L) : L := w.inner

def intoInner (w : Wrapper L) : L := w.inner

end Wrapper

namespace Companion

variable {σ : Type}

/-- Wraps a logger by the method of the extension trait. -/
def into {L : Type} (_ : Companion) (logger : L) : Wrapper L := .new logger

/-- Calls a method of the extension trait on any logger. -/
def extensionOn (c : Companion) (m : ExtensionMethod) (l : StatefulLogger σ) (state : σ)
    (arguments : List Passed) : Logged σ :=
  let asked := l.ask state m.level
  if asked.enabled then
    let view := m.captures.filterMap (Scope.ofCall m.signature arguments).find?
    match c.module? m.module with
    | some module => l.log asked.state (module.record m.level view)
    | none => ⟨asked.state, []⟩
  else ⟨asked.state, []⟩

/-- Calls a method of the interface on the wrapper. -/
def wrapperOn (c : Companion) (m : WrapperMethod) (l : StatefulLogger σ) (w : Wrapper σ)
    (arguments : List Passed) : Logged (Wrapper σ) :=
  let passed := m.arguments.filterMap (Scope.ofCall m.signature arguments).find?
  match c.extension? m.target with
  | some target => (c.extensionOn target l w.logger passed).map .new
  | none => ⟨w, []⟩

/-- Calls a method of the extension trait by its name, if there is one. -/
def callOn? (c : Companion) (name : Ident) (l : StatefulLogger σ) (state : σ)
    (arguments : List Argument) : Option (Logged σ) :=
  (c.extension? name).map fun m => c.extensionOn m l state (Passed.numbered arguments)

/-- Calls a method of the interface by its name, if there is one. -/
def callWithin? (c : Companion) (name : Ident) (l : StatefulLogger σ) (w : Wrapper σ)
    (arguments : List Argument) : Option (Logged (Wrapper σ)) :=
  (c.wrapper? name).map fun m => c.wrapperOn m l w (Passed.numbered arguments)

end Companion

end LogInterface
