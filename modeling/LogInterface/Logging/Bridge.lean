/-
# Logging.Bridge -- records for other logging systems

`LogBridge` hands records to a logging system with levels, targets and key-value
pairs, `traceBridge` to one with trace events.  Both fold the two most severe
levels into one, and the trace bridge keeps the name of the level beside it.

The systems themselves are modelled by what they collect.
-/
import LogInterface.Logging.Logger
import LogInterface.Trace.Event

namespace LogInterface

open LogInterface.Format LogInterface.Number

set_option autoImplicit false

def defaultTarget : String := "typed_logging"

def Level.traceLevel : Level → TraceLevel
  | .trace => .trace
  | .debug => .debug
  | .information => .info
  | .warning => .warn
  | .error | .critical => .error

/-! ## Key-value pairs -/

/-- A value as a key-value pair holds it: a plain value, one that is only known by its
text, or a null value. -/
inductive PairValue where
  | str (s : String)
  | i64 (v : Int64)
  | u64 (v : UInt64)
  | i128 (v : BitVec 128)
  | u128 (v : BitVec 128)
  /-- A number in double precision, by its bits. -/
  | f64 (bits : UInt64)
  | bool (b : Bool)
  | char (c : Char)
  | displayed (d : Displayed)
  | debugged (d : Debugged)
  | null

namespace PairValue

/-- The kind of a value, as far as a reader of pairs can tell. -/
def kind : PairValue → String
  | .str _ => "str"
  | .i64 _ => "i64"
  | .u64 _ => "u64"
  | .i128 _ => "i128"
  | .u128 _ => "u128"
  | .f64 _ => "f64"
  | .bool _ => "bool"
  | .char _ => "char"
  | .displayed _ | .debugged _ => "any"
  | .null => "null"

/-- The text of a value, which is what the value that went in writes of itself; a null
value has none. -/
def text : PairValue → Option String
  | .str s => some s
  | .i64 v => some (Int.repr v.toInt)
  | .u64 v => some (Nat.repr v.toNat)
  | .i128 v => some (Int.repr v.toInt)
  | .u128 v => some (Nat.repr v.toNat)
  | .f64 bits => some (floatText binary64 plainStyle .plain bits.toNat)
  | .bool b => some (truthText b)
  | .char c => some (String.singleton c)
  | .displayed d => some (d.display .plain)
  | .debugged d => some (d.debug .plain)
  | .null => none

end PairValue

/-- A field value as a pair holds it.  A path that is not text cannot be borrowed as
one and is null. -/
def FieldValue.pairValue : FieldValue → PairValue
  | .str s => .str s
  | .i64 v => .i64 v
  | .u64 v => .u64 v
  | .i128 v => .i128 v
  | .u128 v => .u128 v
  | .f64 bits => .f64 bits
  | .bool b => .bool b
  | .char c => .char c
  | .displayed d => .displayed d
  | .debugged d => .debugged d
  | .path _ | .absent => .null

/-- The fields as pairs, up to the first empty slot. -/
def FieldSet.pairs (fs : FieldSet) : List (String × PairValue) :=
  fs.toList.map fun f => (f.name, f.value.pairValue)

/-! ## The log bridge -/

/-- A record as the other system gets it. -/
structure LogEntry where
  level : TraceLevel
  target : String
  /-- The event and the message. -/
  text : String
  module : String
  /-- How many pairs there are said to be. -/
  count : Nat
  pairs : List (String × PairValue)

/-- A collector: the most verbose level it wants, a target it refuses, and the limit
that is in force for all collectors, if it is installed for all. -/
structure LogCollector where
  most : Option TraceLevel
  refused : Option String := none
  globalMost : Option (Option TraceLevel) := none
  deriving DecidableEq, Repr

/-- Is an entry of this level and target wanted? -/
def LogCollector.isEnabled (c : LogCollector) (level : TraceLevel) (target : String) : Bool :=
  (match c.globalMost with
    | some most => level.within most
    | none => true)
    && level.within c.most && c.refused ≠ some target

structure LogBridge where
  collector : LogCollector
  target : String := defaultTarget
  deriving DecidableEq, Repr

namespace LogBridge

/-- The text of an entry: the event between brackets, and the message. -/
def entryText (r : Record) : String := "[" ++ r.event.text ++ "] " ++ r.render

def entry (b : LogBridge) (r : Record) : LogEntry :=
  { level := r.level.traceLevel
    target := b.target
    text := entryText r
    module := "typed_logging::bridge::log"
    count := r.fields.length
    pairs := r.fields.pairs }

/-- The bridge as a logger.  Whoever logs without asking is collected too. -/
def logger (b : LogBridge) : Logger (List LogEntry) :=
  { isEnabled := fun _ level => b.collector.isEnabled level.traceLevel b.target
    log := fun entries r =>
      ⟨entries ++ [b.entry r], Message.conversions r.message ++ r.fields.conversions⟩ }

end LogBridge

/-! ## The trace bridge -/

def Record.traceEvent (r : Record) : TraceEvent :=
  { level := r.level.traceLevel
    target := defaultTarget
    fields :=
      [("event_id", .signed r.event.number), ("event_name", .string r.event.name),
       ("severity", .string r.level.name), ("fields", .formatted r.fields.text),
       ("message", .formatted r.render)] }

/-- The trace bridge under a subscriber that wants levels up to a limit; without a
subscriber nothing is wanted.  Only what is wanted is converted. -/
def traceBridge (most : Option TraceLevel) : Logger (List TraceEvent) :=
  { isEnabled := fun _ level => level.traceLevel.within most
    log := fun events r =>
      if r.level.traceLevel.within most then
        ⟨events ++ [r.traceEvent], r.fields.conversions ++ Message.conversions r.message⟩
      else ⟨events, []⟩ }

end LogInterface
