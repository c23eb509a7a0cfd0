/-
# Generation.Progress -- what a run of the generator reports on its way

Every step of a run can be followed: each log method that was bound, each
interface that was described, checked, and rejected or generated, and the file as
a whole.
-/
import LogInterface.Companion.Expansion
import LogInterface.Trace.Event

namespace LogInterface

set_option autoImplicit false

/-- A step of a run. -/
inductive Progress where
  | bound (method : Ident) (event : Int) (level : Level) (parameters : Nat)
  | described (interface companion : Ident) (methods rejected : Nat)
  | checked (interface : Ident) (violations notes : Nat)
  | rejected (interface : Ident) (violations : Nat)
  | emitted (interface companion : Ident) (methods : Nat)
  | processed (interfaces violations notes : Nat)
  deriving DecidableEq, Repr

namespace Progress

def nameValue (i : Ident) : TraceValue := .formatted i.text

/-- The part of the generator that reports the step. -/
def target : Progress → String
  | .bound _ _ _ _ | .described _ _ _ _ => "typed_logging_codegen::descriptor::build"
  | .checked _ _ _ => "typed_logging_codegen::validate"
  | .rejected _ _ => "typed_logging_codegen"
  | .emitted _ _ _ => "typed_logging_codegen::emit"
  | .processed _ _ _ => "typed_logging_codegen::source"

def message : Progress → String
  | .bound _ _ _ _ => "bound log method"
  | .described _ _ _ _ => "built logging interface descriptor"
  | .checked _ _ _ => "validated logging interface"
  | .rejected _ _ => "rejected logging interface"
  | .emitted _ _ _ => "emitting companion items"
  | .processed _ _ _ => "processed source file"

def values : Progress → List (String × TraceValue)
  | .bound method event level parameters =>
      [("method", nameValue method), ("event_id", .signed event),
       ("level", .formatted level.name), ("parameters", .unsigned parameters)]
  | .described interface companion methods refused =>
      [("interface", nameValue interface), ("companion", nameValue companion),
       ("methods", .unsigned methods), ("rejected", .unsigned refused)]
  | .checked interface violations notes =>
      [("interface", nameValue interface), ("violations", .unsigned violations),
       ("notes", .unsigned notes)]
  | .rejected interface violations =>
      [("interface", nameValue interface), ("violations", .unsigned violations)]
  | .emitted interface companion methods =>
      [("interface", nameValue interface), ("companion", nameValue companion),
       ("methods", .unsigned methods)]
  | .processed interfaces violations notes =>
      [("interfaces", .unsigned interfaces), ("violations", .unsigned violations),
       ("notes", .unsigned notes)]

def event (p : Progress) : TraceEvent :=
  { level := match p with
      | .bound _ _ _ _ => .trace
      | _ => .debug
    target := p.target
    fields := ("message", .formatted p.message) :: p.values }

end Progress

/-- The steps of describing and checking a trait, and what came of it. -/
def Examined.progress (x : Examined) : List Progress :=
  let d := x.interface
  (d.methods.map fun m => .bound m.name m.event.value m.level m.parameters.length)
    ++ [.described d.name d.companion d.methods.length x.built.length,
        .checked d.name x.found.length d.notes.length,
        if x.report.isEmpty then .emitted d.name d.companion d.methods.length
        else .rejected d.name x.report.length]

end LogInterface
