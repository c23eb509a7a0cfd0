/-
# Proofs.Companion.Items -- companions as trees

`Companion.tokens` writes the items of a companion as tokens.  Here the same items are
trees, in the shape in which they are read: `Companion.items`.  Every piece of the tree
writes the tokens of its counterpart, and so does the whole (`items_tokens`).

What the user wrote -- the visibility, the signatures, the documentation and the path
of the runtime crate -- stands in these trees as it is.
-/
import LogInterface.Proofs.Companion.Shapes

namespace LogInterface

open Token Build

set_option autoImplicit false

/-! ## Views -/

def formatterType : Tree :=
  let lifetime : Tree := .node .lifetime (Tree.ofTokens someLifetime)
  let formatter := segment [word "Formatter"] (angle [lifetime] (op ">"))
  .node .referenceType
    (op "&" ++ [.absent, leaf "mut", typeOf (rooted ["core", "fmt"] ++ op "::" ++ [formatter])])

def inRuntime (runtime : List Tree) (names : List String) : List Tree := runtime ++ rooted names

@[simp] theorem inRuntime_tokens (runtime : List Tree) (names : List String) :
    treesTokens (inRuntime runtime names) = treesTokens runtime ++ treesTokens (rooted names) :=
  treesTokens_append _ _

namespace MethodModule

variable (m : MethodModule) (runtime : List Tree)

def eventItem : Tree :=
  let magnitude := lit (number m.event.natAbs)
  let value := if m.event < 0 then Tree.node .unary (op "-" ++ [magnitude]) else magnitude
  .node .constItem
    [attributes [], visible, .absent, leaf "const", leaf "EVENT", list (op ":"),
      typeOf (inRuntime runtime ["EventId"]), list (op "="),
      call (valueOf (inRuntime runtime ["EventId", "new"]))
        (value :: op "," ++ [lit (stringLiteral m.eventName)]),
      list (op ";")]

theorem eventItem_tokens :
    (m.eventItem runtime).tokens = m.eventTokens (treesTokens runtime) := by
  unfold eventItem eventTokens
  by_cases negative : m.event < 0 <;>
    simp only [negative, if_true, if_false, node_tokens, treesTokens_cons, treesTokens_append,
      typeOf_tokens, valueOf_tokens, call_tokens, lit_tokens, op_tokens, inRuntime_tokens, within,
      List.append_assoc] <;>
    rfl

def fieldTree (field : Ident) : Tree :=
  call (valueOf (inRuntime runtime ["ToFieldValue", "to_field_value"]))
    [refTo (selfField field.token)]

theorem fieldTree_tokens (field : Ident) :
    (fieldTree runtime field).tokens = fieldValue (treesTokens runtime) field := by
  simp only [fieldTree, fieldValue, call_tokens, valueOf_tokens, inRuntime_tokens, within]
  rfl

/-- The type of an optional field.  Its two closing brackets are written without a blank
between them, which a reader does not keep. -/
def optionalType : Tree :=
  let lifetime : Tree := .node .lifetime (Tree.ofTokens someLifetime)
  let field := runtime ++ op "::"
    ++ [segment [word "Field"] (angle [lifetime] [.token (.punct '>' .joint .nowhere)])]
  typeOf (rooted ["core", "option"] ++ op "::"
    ++ [segment [word "Option"] (angle [typeOf field] (op ">"))])

theorem optionalType_tokens :
    (optionalType runtime).tokens = optionalField (treesTokens runtime) := by
  simp only [optionalType, optionalField, angle, typeOf_tokens, treesTokens_append,
    treesTokens_cons, treesTokens_nil, segment_tokens, node_tokens, within, List.append_assoc]
  rfl

/-- The function that tells the number of fields. -/
def lenItem : Tree :=
  function [] .absent
    (signature none ⟨"len", .nowhere⟩ [receiver (some .nowhere)]
      (some (typeOf (single [word "usize"]))) none)
    [statement (lit (number m.fields.length)) false]

theorem lenItem_tokens : m.lenItem.tokens = m.lenTokens := rfl

def armTree (index : Nat) (field : Ident) : Tree :=
  .node .arm
    [attributes [], .node .literalPattern [lit (number index)], .absent, list (op "=>"),
      call (valueOf (rooted ["core", "option", "Option", "Some"]))
        [call (valueOf (inRuntime runtime ["Field", "new"]))
          (lit (stringLiteral field.name) :: op "," ++ fieldTree runtime field :: op ",")],
      list (op ",")]

theorem armTree_tokens (index : Nat) (field : Ident) :
    (armTree runtime index field).tokens = fieldArm (treesTokens runtime) index field := by
  simp only [armTree, fieldArm, node_tokens, treesTokens_cons, call_tokens, valueOf_tokens,
    inRuntime_tokens, treesTokens_append, fieldTree_tokens, within, List.append_assoc]
  rfl

def choiceItem : Tree :=
  let head (index : String) : Signature :=
    signature none ⟨"field", .nowhere⟩
      [receiver (some .nowhere), parameter index (typeOf (single [word "usize"]))]
      (some (optionalType runtime)) none
  let none := valueOf (rooted ["core", "option", "Option", "None"])
  if m.fields.isEmpty then function [] .absent (head "_index") [statement none false]
  else
    let other : Tree :=
      .node .arm [attributes [], .node .wildPattern [leaf "_"], .absent, list (op "=>"), none,
        list (op ",")]
    let arms := m.fields.zipIdx.map fun (field, i) => armTree runtime i field
    function [] .absent (head "index")
      [statement
        (.node .matchExpr [leaf "match", valueOf (single [word "index"]),
          bracket .brace (attributes [] :: arms ++ [other])]) false]

theorem choiceItem_tokens :
    (m.choiceItem runtime).tokens = m.fieldTokens (treesTokens runtime) := by
  unfold choiceItem fieldTokens
  split
  · simp only [function_tokens, signature_tokens, optionalType_tokens, List.append_assoc]
    rfl
  · simp only [function_tokens, signature_tokens, optionalType_tokens, List.append_assoc,
      treesTokens_cons, statement_tokens, node_tokens, bracket_tokens, treesTokens_append,
      treesTokens_map, armTree_tokens]
    rfl

/-- One statement that writes a part of the message. -/
def writeTree (runtime : List Tree) : Write → Tree
  | .text s =>
      statement (.node .tryExpr (writeText s :: op "?")) true
  | .field field =>
      statement (.node .tryExpr (call (valueOf (rooted ["core", "fmt", "Display", "fmt"]))
        (refTo (fieldTree runtime field) :: op "," ++ valueOf (single [word "f"]) :: op ",")
          :: op "?")) true
where
  /-- Writes a text. -/
  writeText (s : String) : Tree :=
    .node .methodCall [valueOf (single [word "f"]), .token (.punct '.' .alone .nowhere),
      leaf "write_str", .absent, bracket .parenthesis [lit (stringLiteral s)]]

theorem writeTree_tokens (w : Write) :
    (writeTree runtime w).tokens = writeTokens (treesTokens runtime) w := by
  cases w with
  | text s => rfl
  | field field =>
      simp only [writeTree, writeTokens, statement_tokens, node_tokens, treesTokens_cons,
        call_tokens, treesTokens_append, List.cons_append, refTo_tokens, fieldTree_tokens,
        List.append_assoc]
      rfl

/-- The implementation that writes the message. -/
def displayItem : Tree :=
  let statements :=
    if m.writes.isEmpty then [statement (writeTree.writeText "") false]
    else m.writes.map (writeTree runtime)
      ++ [statement (call (valueOf (rooted ["core", "result", "Result", "Ok"]))
        [.node .tupleExpr [bracket .parenthesis []]]) false]
  function [] .absent
    (signature none ⟨"fmt", .nowhere⟩ [receiver (some .nowhere), parameter "f" formatterType]
      (some (typeOf (rooted ["core", "fmt", "Result"]))) none) statements

theorem displayItem_tokens :
    (m.displayItem runtime).tokens = m.displayTokens (treesTokens runtime) := by
  unfold displayItem displayTokens displayBody
  simp only [function_tokens, signature_tokens]
  split
  · rfl
  · simp only [treesTokens_append, treesTokens_map, writeTree_tokens, List.append_assoc]
    rfl

/-- The type parameters of the view, with their bounds. -/
def typeParams (bounds : Tree) : Generics :=
  ⟨(m.typeNames.map code).map fun n => typeParam n bounds, false⟩

def fieldsPath : List Tree :=
  let types := m.typeNames.map fun t => [typeOf (single (code t))]
  [segment [word "Fields"]
    (if m.fields.isEmpty then .absent else angle (commaTrees types) (op ">"))]

def structTree : Tree :=
  let start : List Tree :=
    [attributes [], visible, leaf "struct", leaf "Fields", .generics (m.typeParams .absent),
      .absent]
  if m.fields.isEmpty then .node .structItem (start ++ [.absent, .absent, list (op ";")])
  else
    let declared := (m.fields.zip m.typeNames).flatMap fun (field, t) =>
      .node .field [attributes [], visible, .token field.token, list (op ":"),
        typeOf (single (code t))] :: op ","
    .node .structItem (start ++ [bracket .brace declared, .absent, list []])

def implTree (trait : List Tree) (items : List Tree) : Tree :=
  implementation [] (m.typeParams (bounds [traitBound [] (inRuntime runtime ["ToFieldValue"])]))
    (forTrait trait) (typeOf m.fieldsPath) items

def viewItems : List Tree :=
  [m.structTree,
    m.implTree runtime (inRuntime runtime ["LogFields"]) [m.lenItem, m.choiceItem runtime],
    m.implTree runtime (rooted ["core", "fmt", "Display"]) [m.displayItem runtime]]

theorem typeNames_ne_nil (some : m.fields ≠ []) : m.typeNames ≠ [] := by
  simpa [typeNames] using some

theorem typeParams_tokens (some : m.fields ≠ []) (bounds : Tree) :
    (m.typeParams bounds).tokens
      = operator "<" ++ commas (m.typeNames.map fun t => code t ++ bounds.tokens)
        ++ operator ">" := by
  have names : m.typeNames.map code ≠ [] := mt List.map_eq_nil_iff.mp (m.typeNames_ne_nil some)
  rw [typeParams, generics_tokens_typeParams _ _ names, List.map_map]
  rfl

theorem code_fieldType (t : String) :
    code (": " ++ t ++ " ,") = operator ":" ++ (code t ++ operator ",") := by
  have spaced : ": " ++ t ++ " ," = ":" ++ " " ++ (t ++ " " ++ ",") :=
    String.toList_inj.mp (by simp [String.toList_append])
  rw [spaced, code_append, code_append]
  rfl

theorem structTree_tokens (some : m.fields ≠ []) :
    m.structTree.tokens
      = code "pub struct Fields" ++ m.typeArguments
        ++ braces ((m.fields.zip m.typeNames).flatMap fun (field, t) =>
          code "pub" ++ [field.token] ++ code (": " ++ t ++ " ,")) := by
  have filled : m.fields.isEmpty = false := by simpa using some
  simp only [structTree, filled, Bool.false_eq_true, if_false, node_tokens, treesTokens_append,
    treesTokens_cons, treesTokens_nil, treesTokens_flatMap, bracket_tokens, typeOf_tokens,
    single_tokens, op_tokens, generics_tree_tokens, m.typeParams_tokens some,
    code_fieldType, List.append_assoc]
  simp only [typeArguments, absent_tokens, List.append_nil, List.nil_append, List.append_assoc]
  rfl

/-- What stands between `impl` and the items of an implementation for the view. -/
theorem implTree_tokens (some : m.fields ≠ []) (trait items : List Tree) :
    (m.implTree runtime trait items).tokens
      = code "impl" ++ m.boundedTypes (treesTokens runtime) ++ treesTokens trait
        ++ code "for Fields" ++ m.typeArguments ++ braces (treesTokens items) := by
  have filled : m.fields.isEmpty = false := by simpa using some
  have types : treesTokens m.fieldsPath = code "Fields" ++ m.typeArguments := by
    have one : (treesTokens ∘ fun t => [typeOf (single (code t))]) = code := by
      funext t
      simp
    simp only [one, fieldsPath, filled, Bool.false_eq_true, if_false, treesTokens_cons,
      treesTokens_nil, segment_tokens, angle, node_tokens, treesTokens_append, commaTrees_tokens,
      op_tokens, List.map_map, typeArguments, List.append_assoc]
    rfl
  simp only [implTree, implementation_tokens, forTrait_tokens, typeOf_tokens, types,
    m.typeParams_tokens some, boundedTypes, bounds_tokens, treesTokens_cons, traitBound_tokens,
    inRuntime_tokens, treesTokens_nil, within, List.append_nil, List.nil_append, List.append_assoc]
  rfl

theorem viewItems_tokens :
    treesTokens (m.viewItems runtime) = m.viewTokens (treesTokens runtime) := by
  unfold viewTokens
  by_cases none : m.fields = []
  · have bare : m.typeNames = [] := by simp [typeNames, none]
    simp only [viewItems, implTree, structTree, none, List.isEmpty_nil, if_true, typeParams, bare,
      fieldsPath, implementation_tokens, forTrait_tokens, treesTokens_cons, treesTokens_nil,
      lenItem_tokens, choiceItem_tokens, displayItem_tokens, inRuntime_tokens, within,
      List.append_assoc, List.append_nil]
    rfl
  · have filled : m.fields.isEmpty = false := by simpa using none
    simp only [viewItems, treesTokens_cons, m.structTree_tokens none,
      m.implTree_tokens runtime none, lenItem_tokens, choiceItem_tokens, displayItem_tokens,
      inRuntime_tokens, filled, Bool.false_eq_true, if_false, treesTokens_nil, List.append_nil,
      List.append_assoc, within]
    rfl

def item (needed : Bool) : Tree :=
  .node .modItem
    [attributes [], visible, .absent, leaf "mod", .token m.name.token,
      body (parentImportItems needed ++ m.eventItem runtime :: m.viewItems runtime)]

theorem item_tokens (needed : Bool) :
    (m.item runtime needed).tokens = m.tokens (treesTokens runtime) needed := by
  simp only [item, tokens, node_tokens, treesTokens_cons, body_tokens, treesTokens_append,
    parentImportItems_tokens, eventItem_tokens, viewItems_tokens, List.append_assoc]
  rfl

end MethodModule

/-! ## Methods -/

/-- The path to something in the module of a method. -/
def moduleMember (hidden module : Ident) (name : String) : List Tree :=
  single [hidden.token] ++ op "::" ++ single [module.token] ++ rooted [name]

def levelTree (runtime : List Tree) (l : Level) : Tree :=
  valueOf (inRuntime runtime ["Level", l.name])

@[simp] theorem levelTree_tokens (runtime : List Tree) (l : Level) :
    (levelTree runtime l).tokens = levelTokens (treesTokens runtime) l := by
  rw [levelTree, valueOf_tokens, inRuntime_tokens]
  cases l <;> rfl

namespace ExtensionMethod

variable (e : ExtensionMethod) (runtime : List Tree) (hidden : Ident)

def captureTree : Tree :=
  let view := moduleMember hidden e.module "Fields"
  if e.captures.isEmpty then valueOf view
  else
    .node .structExpr
      [.node .path view, bracket .brace (commaTrees (e.captures.map fun i =>
        [.node .fieldValue
          [attributes [], .token i.token, list (op ":" ++ [refTo (valueOf (single [i.token]))])]]))]

theorem captureTree_tokens : (e.captureTree hidden).tokens = e.capture hidden := by
  unfold captureTree capture
  split
  · rfl
  · simp only [node_tokens, treesTokens_cons, bracket_tokens, commaTrees_tokens, List.map_map]
    rfl

def statements : List Tree :=
  let self := valueOf (single [word "self"])
  let level := levelTree runtime e.level
  let enabled :=
    call (valueOf (inRuntime runtime ["Logger", "is_enabled"])) (self :: op "," ++ [level])
  let leave := statement (.node .returnExpr [leaf "return", .absent]) true
  let fields := refTo (valueOf (single [word "__fields"]))
  let event := valueOf (moduleMember hidden e.module "EVENT")
  let record := call (valueOf (inRuntime runtime ["Record", "new"]))
    (level :: op "," ++ event :: op "," ++ fields :: op "," ++ [fields])
  [ statement
      (.node .ifExpr [leaf "if", .node .unary (op "!" ++ [enabled]), Build.body [leave], .absent])
      false,
    .node .letStmt
      [attributes [], leaf "let",
        .node .identPattern [.absent, .absent, leaf "__fields", .absent], .absent,
        list (op "=" ++ [e.captureTree hidden]), .absent, list (op ";")],
    statement
      (call (valueOf (inRuntime runtime ["Logger", "log"]))
        (self :: op "," ++ refTo record :: op ",")) true ]

theorem statements_tokens :
    treesTokens (e.statements runtime hidden) = e.body (treesTokens runtime) hidden := by
  simp only [statements, body, treesTokens_cons, treesTokens_append, statement_tokens, node_tokens,
    call_tokens, valueOf_tokens, inRuntime_tokens, levelTree_tokens, list_tokens, body_tokens,
    captureTree_tokens, refTo_tokens, within, treesTokens_nil, if_true, Bool.false_eq_true,
    if_false, List.append_nil, List.append_assoc, List.cons_append]
  rfl

def method : Method :=
  { attributes :=
      e.docs ++ (if e.docs.isEmpty then [] else [doc ""]) ++ [doc e.summary]
    signature := e.signature
    body := some (bracket .brace (e.statements runtime hidden)) }

theorem method_tokens (outer : ∀ a ∈ e.docs, a.inner = false) :
    (e.method runtime hidden).tokens = e.tokens (treesTokens runtime) hidden := by
  have front : ∀ a ∈ (e.method runtime hidden).attributes, a.inner = false := by
    intro a member
    simp only [method, List.mem_append, List.mem_ite_nil_left, List.mem_singleton] at member
    obtain (written | ⟨-, rfl⟩) | rfl := member
    · exact outer a written
    · rfl
    · rfl
  rw [tokens, ← statements_tokens]
  show outerTokens (e.method runtime hidden).attributes ++ e.signature.tokens
      ++ [wrap .brace (innerTokens (e.method runtime hidden).attributes ++ _)] = _
  rw [outerTokens_of_outer front, innerTokens_of_outer front]
  simp only [method, List.flatMap_append]
  cases e.docs.isEmpty <;> rfl

end ExtensionMethod

def WrapperMethod.item (w : WrapperMethod) (extension : Ident) : Tree :=
  let target := single [extension.token] ++ op "::" ++ single [w.target.token]
  let logger := refTo (selfField (word "logger"))
  function [] .absent w.signature
    [statement
      (call (valueOf target)
        (logger :: op "," ++ commaTrees (w.arguments.map fun i => [valueOf (single [i.token])])))
      false]

theorem WrapperMethod.item_tokens (w : WrapperMethod) (extension : Ident) :
    (w.item extension).tokens = w.tokens extension := by
  have arguments : treesTokens (commaTrees (w.arguments.map fun i => [valueOf (single [i.token])]))
      = commas (w.arguments.map fun i => [i.token]) := by
    rw [commaTrees_tokens, List.map_map]
    rfl
  simp only [item, tokens, function_tokens, treesTokens_cons, statement_tokens, call_tokens,
    treesTokens_append, List.cons_append, arguments]
  rfl

/-! ## Items -/

namespace Companion

variable (c : Companion)

def runtimePath : List Tree := segmentsOf c.runtime

@[simp] theorem runtimePath_tokens : treesTokens c.runtimePath = c.runtime.tokens :=
  segmentsOf_tokens c.runtime

/-- A parameter of the wrapper: a logger. -/
def loggers (bounds : Tree) : Generics := ⟨[[word "L"]].map fun n => typeParam n bounds, false⟩

@[simp] theorem loggers_tokens (bounds : Tree) :
    (loggers bounds).tokens = operator "<" ++ ([word "L"] ++ bounds.tokens) ++ operator ">" :=
  generics_tokens_typeParams [[word "L"]] bounds (List.cons_ne_nil _ _)

/-- The type parameter as a type. -/
def loggerTree : Tree := typeOf (single [word "L"])

def wrapperType (argument : String) : Tree :=
  typeOf [segment [c.name.token] (angle [typeOf (single [word argument])] (op ">"))]

/-- The module that holds the modules of the methods. -/
def hiddenItem : Tree :=
  .node .modItem
    [attributes [tagged "doc" (code "hidden"), lint ["non_snake_case", "non_camel_case_types"]],
      .absent, .absent, leaf "mod", .token (Naming.hiddenModule c.name).token,
      body (parentImportItems (nestedRuntime c.runtime).2
        ++ c.modules.map (·.item (nestedSegments c.runtime) (nestedRuntime c.runtime).2))]

theorem hiddenItem_tokens : c.hiddenItem.tokens = c.hiddenTokens := by
  simp only [hiddenItem, hiddenTokens, node_tokens, treesTokens_cons, body_tokens,
    treesTokens_append, parentImportItems_tokens, treesTokens_map, MethodModule.item_tokens,
    nestedSegments_tokens]
  rfl

def intoMethod : Method :=
  let self := valueOf (single [word "self"])
  let sized := traitBound [] (rooted ["core", "marker", "Sized"])
  let predicate : Tree :=
    .node .typePredicate
      [.absent, typeOf (single [word "Self"]), .token (.punct ':' .alone .nowhere), list [sized]]
  { attributes := [rawDoc " Wraps this logger in a value implementing the logging trait."]
    signature :=
      signature none (Naming.intoCompanion c.name) [receiver none] (some (c.wrapperType "Self"))
        (some (.node .whereClause (leaf "where" :: predicate :: op ",")))
    body := some (bracket .brace
      [statement (call (valueOf (single [c.name.token] ++ rooted ["new"])) [self]) false]) }

def extensionTrait : TraitDecl :=
  { attributes := [doc c.extensionDoc, lint ["non_snake_case", "dead_code"]]
    visibility := c.visibility
    unsafety := none
    auto := none
    keyword := .nowhere
    name := Naming.extensionTrait c.name
    generics := ⟨[], false⟩
    supertraits := [traitBound [] (inRuntime c.runtimePath ["Logger"])]
    trailingPlus := false
    clause := none
    items :=
      (c.extensions.map fun e =>
          TraitItem.method (e.method c.runtimePath (Naming.hiddenModule c.name)))
        ++ [.method c.intoMethod] }

/-- The implementation of the extension trait for every logger. -/
def extensionImpl : Tree :=
  implementation []
    (loggers (bounds (traitBound [] (inRuntime c.runtimePath ["Logger"]) :: op "+"
      ++ [traitBound (op "?") (rooted ["core", "marker", "Sized"])])))
    (forTrait (single [(Naming.extensionTrait c.name).token])) loggerTree []

/-- The extension trait, and its implementation for every logger. -/
def extensionItems : List Tree := [.trait c.extensionTrait, c.extensionImpl]

theorem extensionItems_tokens (outer : ∀ e ∈ c.extensions, ∀ a ∈ e.docs, a.inner = false) :
    treesTokens c.extensionItems = c.extensionTokens := by
  have declared : (Tree.trait c.extensionTrait).tokens
      = documentation c.extensionDoc ++ (allow ["non_snake_case", "dead_code"]
        ++ (c.visibility.tokens ++ (code "trait" ++ ([(Naming.extensionTrait c.name).token]
        ++ (operator ":" ++ (c.runtime.tokens ++ (code ":: Logger"
        ++ braces (itemsTokens c.extensionTrait.items)))))))) := by
    simp only [extensionTrait, Tree.tokens, TraitDecl.tokens, supertraitTokens,
      moreSupertraitTokens, traitBound_tokens, inRuntime_tokens, runtimePath_tokens,
      List.append_assoc]
    rfl
  have into : c.intoMethod.tokens
      = rawDocumentation " Wraps this logger in a value implementing the logging trait."
        ++ (code "fn" ++ ([(Naming.intoCompanion c.name).token] ++ (parens (code "self")
        ++ (operator "->" ++ ([c.name.token]
        ++ (code "< Self > where Self : :: core :: marker :: Sized ,"
        ++ braces ([c.name.token] ++ code ":: new" ++ parens (code "self")))))))) := rfl
  have methods : itemsTokens c.extensionTrait.items
      = c.extensions.flatMap (·.tokens c.runtime.tokens (Naming.hiddenModule c.name))
        ++ c.intoMethod.tokens := by
    rw [extensionTrait, itemsTokens_eq, List.flatMap_append, List.flatMap_map,
      List.flatMap_singleton, ← c.runtimePath_tokens]
    refine congrArg (· ++ c.intoMethod.tokens) (List.flatMap_congr fun e member => ?_)
    exact e.method_tokens _ _ (outer e member)
  simp only [extensionItems, extensionTokens, treesTokens_cons, extensionImpl,
    implementation_tokens, loggers_tokens, forTrait_tokens, declared, methods, into, bounds_tokens,
    treesTokens_append, List.cons_append, treesTokens_nil, traitBound_tokens, inRuntime_tokens,
    runtimePath_tokens, within, List.append_nil, List.append_assoc]
  rfl

def wrapperStruct : Tree :=
  let logger : Tree :=
    .node .field [attributes [], .absent, leaf "logger", list (op ":"), loggerTree]
  let about := " A `" ++ c.interface.text ++ "` implementation that logs through a wrapped logger."
  .node .structItem
    [attributes
        [doc about, tagged "derive" (code "Debug , Clone"), lint ["dead_code"]],
      c.visibility, leaf "struct", .token c.name.token, .generics (loggers .absent), .absent,
      bracket .brace (logger :: op ","), .absent, list []]

def wrapperFunction (about : String) (constness : Option Place) (name : String)
    (inputs : List Input) (output result : Tree) : Tree :=
  function [rawDoc about] c.visibility
    (signature constness ⟨name, .nowhere⟩ inputs (some output) none) [statement result false]

def wrapperFunctions : List Tree :=
  let self := typeOf (single [word "Self"])
  let logger : Tree := .node .fieldValue [attributes [], leaf "logger", .absent]
  [ c.wrapperFunction " Wraps `logger`." (some .nowhere) "new" [parameter "logger" loggerTree] self
      (.node .structExpr [.node .path (single [word "Self"]), bracket .brace [logger]]),
    c.wrapperFunction " Returns the wrapped logger." none "logger" [receiver (some .nowhere)]
      (.node .referenceType (op "&" ++ [.absent, .absent, loggerTree]))
      (refTo (selfField (word "logger"))),
    c.wrapperFunction " Unwraps the logger." none "into_inner" [receiver none] loggerTree
      (selfField (word "logger")) ]

def wrapperItems : List Tree :=
  [c.wrapperStruct,
    implementation [lint ["dead_code"]] (loggers .absent) .absent (c.wrapperType "L")
      c.wrapperFunctions]

theorem wrapperItems_tokens : treesTokens c.wrapperItems = c.wrapperTokens := by
  simp only [wrapperItems, wrapperTokens, treesTokens_cons, treesTokens_nil, wrapperStruct,
    wrapperFunctions, wrapperFunction, node_tokens, function_tokens, implementation_tokens,
    loggers_tokens, generics_tree_tokens, List.append_assoc, List.append_nil]
  rfl

def implementationItem : Tree :=
  implementation [lint ["non_snake_case"]]
    (loggers (bounds [traitBound [] (inRuntime c.runtimePath ["Logger"])]))
    (forTrait (single [c.interface.token])) (c.wrapperType "L")
    (c.wrappers.map (·.item (Naming.extensionTrait c.name)))

theorem implementationItem_tokens : c.implementationItem.tokens = c.implementationTokens := by
  simp only [implementationItem, implementationTokens, implementation_tokens, loggers_tokens,
    forTrait_tokens, treesTokens_map, WrapperMethod.item_tokens, bounds_tokens, treesTokens_cons,
    traitBound_tokens, inRuntime_tokens, runtimePath_tokens, treesTokens_nil, within,
    List.append_nil, List.append_assoc]
  rfl

def eventsItem : Tree :=
  let about := " Event ids of `" ++ c.interface.text ++ "`, in declaration order."
  let event := typeOf (inRuntime c.runtimePath ["EventId"])
  let listed := c.events.map fun m =>
    [valueOf (moduleMember (Naming.hiddenModule c.name) m "EVENT")]
  .node .constItem
    [attributes [doc about, lint ["dead_code"]],
      c.visibility, .absent, leaf "const", .token (Naming.eventsConst c.name).token, list (op ":"),
      .node .referenceType
        (op "&" ++ [.absent, .absent, .node .sliceType [bracket .bracket [event]]]),
      list (op "="), refTo (.node .arrayExpr [bracket .bracket (commaTrees listed)]),
      list (op ";")]

theorem eventsItem_tokens : c.eventsItem.tokens = c.eventsTokens := by
  have listed : (c.events.map fun m =>
        [valueOf (moduleMember (Naming.hiddenModule c.name) m "EVENT")]).map treesTokens
      = c.events.map fun m => inModule (Naming.hiddenModule c.name) m "EVENT" := by
    rw [List.map_map]
    rfl
  simp only [eventsItem, eventsTokens, node_tokens, treesTokens_cons, treesTokens_append,
    bracket_tokens, refTo_tokens, typeOf_tokens, inRuntime_tokens, runtimePath_tokens,
    commaTrees_tokens, listed, treesTokens_nil, within, List.append_nil, List.append_assoc]
  rfl

def items : List Tree :=
  [c.hiddenItem] ++ c.extensionItems ++ c.wrapperItems ++ [c.implementationItem, c.eventsItem]

/-- The items of a companion are what its tokens say. -/
theorem items_tokens (outer : ∀ e ∈ c.extensions, ∀ a ∈ e.docs, a.inner = false) :
    treesTokens c.items = c.tokens := by
  simp only [items, tokens, treesTokens_append, treesTokens_cons, treesTokens_nil,
    c.hiddenItem_tokens, c.extensionItems_tokens outer, c.wrapperItems_tokens,
    c.implementationItem_tokens, c.eventsItem_tokens, List.append_nil, List.append_assoc]

end Companion

end LogInterface
