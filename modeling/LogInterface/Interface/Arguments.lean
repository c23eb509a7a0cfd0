/-
# Interface.Arguments -- arguments of the two attributes

`extensionArguments` reads what stands behind `logger_extensions`: an optional
name, then `name = …` and `crate = …` in any order, each at most once.

`messageArguments` reads what stands behind `logger_message`: an event id, a
level and a template, by position, by name, or by position first and by name
afterwards.
-/
import LogInterface.Level
import LogInterface.Parser.File

namespace LogInterface

set_option autoImplicit false

open LogInterface.Parser

/-! ## The trait -/

structure ExtensionArguments where
  /-- The name of the companion. -/
  name : Option StringLiteral := none
  /-- The path of the runtime crate. -/
  runtime : Option Tree := none

/-- What is written behind the closing quote of a string literal. -/
def suffixOf (l : StringLiteral) : String :=
  String.ofList
    (((l.written.toList.reverse.takeWhile (· ≠ '"')).reverse).dropWhile (· = '#'))

/-- A parser for the text of a string literal without a suffix; all of it stands
at the literal. -/
def withinLiteral {α : Type} (l : StringLiteral) (p : Grammar → Parser α) :
    Except ParseError α := do
  match Token.ofSource l.value with
  | .error place => throw ⟨place, .rule noTokens, false⟩
  | .ok tokens =>
      let tokens := Token.moveAllTo l.place tokens
      let value ← onAll (p (.ofTokens false tokens)) tokens l.place
      if suffixOf l != "" then
        throw ⟨l.place, .rule ("unexpected suffix `" ++ suffixOf l ++ "` on string literal"), false⟩
      return value

/-- The path behind `crate =`, which may be quoted. -/
def runtimePath : Parser Tree := do
  if startsString (← ahead) then
    match withinLiteral (← string) fun _ => plainPathTree with
    | .ok t => return t
    | .error e => throw e
  else plainPathTree

def namedExtension (args : ExtensionArguments) : Parser ExtensionArguments := do
  match ← word? "crate" with
  | some place =>
      let _ ← operator "="
      let path ← runtimePath
      if args.runtime.isSome then failAt place (.rule "duplicate `crate` argument")
      return { args with runtime := some path }
  | none =>
      let key ← name
      if key.text != "name" then
        failAt key.place
          (.rule ("unknown argument `" ++ key.text ++ "`; expected `name` or `crate`"))
      let _ ← operator "="
      let value ← string
      if args.name.isSome then failAt key.place (.rule "duplicate `name` argument")
      return { args with name := some value }

def namedExtensions : (fuel : Nat) → ExtensionArguments → Parser ExtensionArguments
  | 0, args => return args
  | fuel + 1, args => do
      if (← ahead).isEmpty then return args
      let args ← namedExtension args
      if (← ahead).isEmpty then return args
      let _ ← operator ","
      namedExtensions fuel args

def extensionArguments : Parser ExtensionArguments := do
  if startsString (← ahead) then
    let args : ExtensionArguments := { name := some (← string) }
    if (← ahead).isEmpty then return args
    let _ ← operator ","
    namedExtensions (← steps) args
  else namedExtensions (← steps) {}

def ExtensionArguments.ofTokens (tokens : List Token) : Except ParseError ExtensionArguments :=
  parseAll (fun _ => extensionArguments) tokens

/-! ## A method -/

structure EventNumber where
  value : Int
  place : Place

structure MessageArguments where
  event : EventNumber
  level : Level
  message : StringLiteral

/-- The arguments that were read so far. -/
structure PartialMessage where
  event : Option EventNumber := none
  level : Option Level := none
  message : Option StringLiteral := none

/-- Whole numbers of 64 bits. -/
def fitsLong (i : Int) : Bool := Int64.minValue.toInt ≤ i && i ≤ Int64.maxValue.toInt

/-- Whole numbers of 32 bits. -/
def fitsInt (i : Int) : Bool := Int32.minValue.toInt ≤ i && i ≤ Int32.maxValue.toInt

/-- Reads a number, which may carry a minus sign of its own. -/
def signedNumber : Parser EventNumber := do
  let (negative, place, text, rest) ←
    match ← ahead with
    | .literal text p :: rest => pure (false, p, text, rest)
    | .punct '-' _ p :: .literal text _ :: rest => pure (true, p, text, rest)
    | _ => failExpecting ["integer literal"]
  match Literal.integer? text with
  | none => failExpecting ["integer literal"]
  | some n =>
      advance rest
      let value : Int := if negative then -(n : Int) else n
      if fitsLong value then return ⟨value, place⟩
      else failAt place (.rule (if negative then "number too small to fit in target type"
        else "number too large to fit in target type"))

/-- An event id.  A minus sign may stand before the number, besides its own. -/
def eventNumber : Parser EventNumber := do
  let sign ← operator? "-"
  let n ← signedNumber
  let value := if sign.isEmpty then n.value else -n.value
  if fitsInt value then return ⟨value, n.place⟩
  else failAt n.place (.rule "event id must fit in an `i32`")

/-- The name of the last segment of a path. -/
def lastName (path : Tree) : String :=
  match (elements path.children).getLast? with
  | some (.node .segment (.token (.ident text _) :: _)) => text
  | _ => ""

/-- A level: a path that ends in its name. -/
def levelPath (g : Grammar) : Parser Level := do
  let path ← Parser.path g false
  let text := lastName path
  match Level.ofName? text with
  | some l => return l
  | none =>
      failAt path.place
        (.rule ("unknown level `" ++ text ++ "`; expected one of "
          ++ ", ".intercalate (Level.all.map Level.name)))

/-- Fails if a named argument was given before. -/
def onlyOnce (given : Bool) (key : Ident) : Parser Unit := do
  if given then failAt key.place (.rule ("`" ++ key.text ++ "` is specified more than once"))

def namedMessage (g : Grammar) (args : PartialMessage) : Parser PartialMessage := do
  let key ← name
  let _ ← operator "="
  if key.text == "id" || key.text == "event_id" then
    let n ← eventNumber
    onlyOnce args.event.isSome key
    return { args with event := some n }
  else if key.text == "level" then
    let l ← levelPath g
    onlyOnce args.level.isSome key
    return { args with level := some l }
  else if key.text == "message" then
    let m ← string
    onlyOnce args.message.isSome key
    return { args with message := some m }
  else
    failAt key.place
      (.rule ("unknown argument `" ++ key.text ++ "`; expected `id`, `level`, or `message`"))

def positionalMessage (g : Grammar) (index : Nat) (args : PartialMessage) :
    Parser PartialMessage := do
  match index with
  | 0 => return { args with event := some (← eventNumber) }
  | 1 => return { args with level := some (← levelPath g) }
  | 2 => return { args with message := some (← string) }
  | _ => failHere (.rule "too many arguments; expected `(event_id, Level, \"message\")`")

/-- Does an argument with a name come next? -/
def startsNamedArgument (ts : List Token) : Bool := startsName ts && startsOperator "=" (skip ts)

/-- Arguments to the end; `index` counts those by position, and `named` says
whether one by name was read. -/
def partialMessage (g : Grammar) : (fuel index : Nat) → (named : Bool) → PartialMessage →
    Parser PartialMessage
  | 0, _, _, args => return args
  | fuel + 1, index, named, args => do
      let ts ← ahead
      if ts.isEmpty then return args
      let byName := startsNamedArgument ts
      let args ←
        if byName then namedMessage g args
        else if named then
          failHere (.rule "positional arguments must come before named arguments")
        else positionalMessage g index args
      if (← ahead).isEmpty then return args
      let _ ← operator ","
      partialMessage g fuel (if byName then index else index + 1) (named || byName) args

def required {α : Type} (slot : Option α) (missing : String) : Parser α :=
  match slot with
  | some a => return a
  | none => failHere (.rule missing)

def messageArguments (g : Grammar) : Parser MessageArguments := do
  let args ← partialMessage g (← steps) 0 false {}
  let event ← required args.event "missing event id"
  let level ← required args.level "missing level"
  let message ← required args.message "missing message template"
  return ⟨event, level, message⟩

def MessageArguments.ofTokens (tokens : List Token) : Except ParseError MessageArguments :=
  parseAll messageArguments tokens

end LogInterface
