/-
# Trace.Event -- structured trace events

A trace event has a severity, a target and named values.  Events of this kind are
what the tracing bridge emits and what a run of the generator reports.
-/

namespace LogInterface

set_option autoImplicit false

/-- How much a trace event tells, from the most urgent to the most detailed. -/
inductive TraceLevel where
  | error | warn | info | debug | trace
  deriving DecidableEq, Repr

namespace TraceLevel

/-- All trace levels, the most urgent first. -/
def all : List TraceLevel := [.error, .warn, .info, .debug, .trace]

def name : TraceLevel → String
  | .error => "ERROR"
  | .warn => "WARN"
  | .info => "INFO"
  | .debug => "DEBUG"
  | .trace => "TRACE"

def verbosity : TraceLevel → Nat
  | .error => 1
  | .warn => 2
  | .info => 3
  | .debug => 4
  | .trace => 5

/-- Is the trace level within a limit?  Without one nothing is. -/
def within (l : TraceLevel) : (limit : Option TraceLevel) → Bool
  | some most => l.verbosity ≤ most.verbosity
  | none => false

def ofName? (text : String) : Option TraceLevel := all.find? (·.name == text)

end TraceLevel

/-- A value of a trace event. -/
inductive TraceValue where
  | signed (i : Int)
  | unsigned (n : Nat)
  | string (s : String)
  /-- A value that was given as formatted text. -/
  | formatted (text : String)
  deriving DecidableEq, Repr

def TraceValue.kind : TraceValue → String
  | .signed _ => "i64"
  | .unsigned _ => "u64"
  | .string _ => "str"
  | .formatted _ => "debug"

def TraceValue.text : TraceValue → String
  | .signed i => Int.repr i
  | .unsigned n => Nat.repr n
  | .string s => s
  | .formatted text => text

structure TraceEvent where
  level : TraceLevel
  target : String
  fields : List (String × TraceValue)
  deriving DecidableEq, Repr

end LogInterface
