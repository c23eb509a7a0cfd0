/-
# Proofs.Companion.Shapes -- shapes of generated source

Generated source is written as tokens; nothing looks at it as items before the whole
file is read again.  The builders here make the trees that a reader of these tokens
gets, with nothing but tokens in them beside the trees that they are given, and tell
what tokens they stand for.
-/
import LogInterface.Companion.Tokens
import LogInterface.Parser.Grammar
import Mathlib.Data.List.Basic

namespace LogInterface

open Token

set_option autoImplicit false

/-! ## Tokens of trees -/

@[simp] theorem treesTokens_nil : treesTokens [] = [] := rfl

@[simp] theorem treesTokens_cons (t : Tree) (ts : List Tree) :
    treesTokens (t :: ts) = t.tokens ++ treesTokens ts := rfl

theorem treesTokens_eq (ts : List Tree) : treesTokens ts = ts.flatMap Tree.tokens := by
  induction ts with
  | nil => rfl
  | cons t ts ih => exact congrArg (t.tokens ++ ·) ih

@[simp] theorem treesTokens_append (ts us : List Tree) :
    treesTokens (ts ++ us) = treesTokens ts ++ treesTokens us := by
  simp only [treesTokens_eq, List.flatMap_append]

@[simp] theorem treesTokens_ofTokens (ts : List Token) : treesTokens (Tree.ofTokens ts) = ts := by
  induction ts with
  | nil => rfl
  | cons t ts ih => exact congrArg (t :: ·) ih

theorem treesTokens_flatMap {α : Type} (f : α → List Tree) (xs : List α) :
    treesTokens (xs.flatMap f) = xs.flatMap fun x => treesTokens (f x) := by
  simp only [treesTokens_eq, List.flatMap_assoc]

theorem treesTokens_map {α : Type} (f : α → Tree) (xs : List α) :
    treesTokens (xs.map f) = xs.flatMap fun x => (f x).tokens := by
  rw [treesTokens_eq, List.flatMap_map]

theorem treesTokens_joinWith (separator : List Tree) (xs : List (List Tree)) :
    treesTokens (joinWith separator xs)
      = joinWith (treesTokens separator) (xs.map treesTokens) := by
  fun_induction joinWith separator xs with
  | case1 => rfl
  | case2 x => rfl
  | case3 x xs rest ih =>
      obtain ⟨y, ys, rfl⟩ := List.exists_cons_of_ne_nil rest
      rw [treesTokens_append, treesTokens_append, ih]
      rfl

@[simp] theorem node_tokens (kind : Kind) (children : List Tree) :
    (Tree.node kind children).tokens = treesTokens children := rfl

@[simp] theorem absent_tokens : Tree.absent.tokens = [] := rfl

theorem itemsTokens_eq (is : List TraitItem) : itemsTokens is = is.flatMap TraitItem.tokens := by
  induction is with
  | nil => rfl
  | cons i is ih => exact congrArg (i.tokens ++ ·) ih

/-! ## Attributes in front -/

theorem outerTokens_of_outer {as : List Attribute} (outer : ∀ a ∈ as, a.inner = false) :
    outerTokens as = as.flatMap Attribute.tokens := by
  induction as with
  | nil => rfl
  | cons a as ih =>
      rw [outerTokens, ih fun b member => outer b (List.mem_cons_of_mem _ member),
        outer a List.mem_cons_self]
      rfl

theorem innerTokens_of_outer {as : List Attribute} (outer : ∀ a ∈ as, a.inner = false) :
    innerTokens as = [] := by
  induction as with
  | nil => rfl
  | cons a as ih =>
      rw [innerTokens, ih fun b member => outer b (List.mem_cons_of_mem _ member),
        outer a List.mem_cons_self]
      rfl

/-! ## Words -/

theorem splitWords_append (cs ds : List Char) :
    splitWords (cs ++ ' ' :: ds) = splitWords cs ++ splitWords ds := by
  have filled (ds : List Char) : ∃ word words, splitWords ds = word :: words := by
    fun_cases splitWords ds <;> simp
  induction cs with
  | nil =>
      obtain ⟨word, words, split⟩ := filled ds
      simp [splitWords, split]
  | cons c cs ih =>
      obtain ⟨word, words, split⟩ := filled cs
      rw [List.cons_append, splitWords, ih, splitWords, split]
      by_cases blank : c = ' ' <;> simp [blank]

/-- Text behind a blank is source of its own. -/
theorem code_append (a b : String) : code (a ++ " " ++ b) = code a ++ code b := by
  rw [code, String.toList_append, String.toList_append, List.append_assoc]
  exact (congrArg (List.flatMap ofWord) (splitWords_append a.toList b.toList)).trans
    List.flatMap_append

/-! ## Builders -/

namespace Build

def leaf (text : String) : Tree := .token (word text)

def op (text : String) : List Tree := Tree.ofTokens (operator text)

def list (ts : List Tree) : Tree := .node .list ts

def attributes (as : List Attribute) : Tree := Parser.attributesTree as

def bracket (d : Delimiter) (ts : List Tree) : Tree := .group d .nowhere .nowhere ts

def commaTrees (xs : List (List Tree)) : List Tree := joinWith (op ",") xs

/-- A body without attributes inside. -/
def body (ts : List Tree) : Tree := bracket .brace (attributes [] :: ts)

/-- A segment of a path: a name and its arguments. -/
def segment (name : List Token) (arguments : Tree) : Tree :=
  .node .segment (Tree.ofTokens name ++ [arguments])

/-- Segments behind others, each behind two colons. -/
def rooted (names : List String) : List Tree :=
  names.flatMap fun n => op "::" ++ [segment [word n] .absent]

def angle (arguments : List Tree) (closing : List Tree) : Tree :=
  .node .angleArguments (op "<" ++ arguments ++ closing)

def single (name : List Token) : List Tree := [segment name .absent]

def typeOf (path : List Tree) : Tree := .node .pathType [.node .path path]

def valueOf (path : List Tree) : Tree := .node .pathExpr [.node .path path]

def lit (ts : List Token) : Tree := .node .literal (Tree.ofTokens ts)

def call (f : Tree) (arguments : List Tree) : Tree :=
  .node .call [f, bracket .parenthesis arguments]

def refTo (e : Tree) : Tree := .node .referenceExpr (op "&" ++ [.absent, e])

def selfField (name : Token) : Tree :=
  .node .fieldAccess [valueOf (single [word "self"]), .token (.punct '.' .alone .nowhere),
    .token name]

/-- A statement; `semicolon` ends it. -/
def statement (e : Tree) (semicolon : Bool) : Tree :=
  .node .exprStmt [e, list (if semicolon then op ";" else [])]

/-- A bound by a trait, behind the tokens of a modifier. -/
def traitBound (modifier : List Tree) (path : List Tree) : Tree :=
  .node .traitBound [.absent, list modifier, .node .path path]

def typeParam (name : List Token) (bounds : Tree) : GenericParam :=
  ⟨.type, .node .typeParam (attributes [] :: Tree.ofTokens name ++ [bounds, .absent])⟩

def bounds (ts : List Tree) : Tree := .node .bounds (op ":" ++ ts)

/-- The visibility of what everyone sees. -/
def visible : Tree := .node .visibility [leaf "pub"]

/-- A receiver, by reference or by value. -/
def receiver (reference : Option Place) : Input :=
  .receiver ⟨[], reference, .absent, none, .nowhere, none⟩

def parameter (name : String) (type : Tree) : Input := .typed [] (.name ⟨name, .nowhere⟩) type

def signature (constness : Option Place) (name : Ident) (inputs : List Input)
    (output : Option Tree) (clause : Option Tree) : Signature :=
  { constness
    asyncness := none
    unsafety := none
    abi := none
    keyword := .nowhere
    name
    generics := ⟨[], false⟩
    inputs
    trailing := false
    variadic := none
    output
    clause }

def function (as : List Attribute) (seen : Tree) (s : Signature) (statements : List Tree) : Tree :=
  .node .functionItem [attributes as, seen, .absent, .signature s, body statements]

def implementation (as : List Attribute) (g : Generics) (ofTrait type : Tree)
    (items : List Tree) : Tree :=
  .node .implItem
    [attributes as, .absent, .absent, leaf "impl", .generics g, ofTrait, type, .absent, body items]

def forTrait (path : List Tree) : Tree := .node .asTrait [list [], typeOf path, leaf "for"]

/-- An attribute of one name with arguments. -/
def tagged (name : String) (arguments : List Token) : Attribute :=
  ⟨false, .nowhere, false, [⟨name, .nowhere⟩], .list .parenthesis arguments .nowhere .nowhere⟩

/-- A documentation attribute with a literal as it is written. -/
def docLiteral (written : String) : Attribute :=
  ⟨false, .nowhere, false, [⟨"doc", .nowhere⟩],
    .value (.node .literal [.token (.literal written .nowhere)])⟩

def doc (text : String) : Attribute := docLiteral (Text.quotedLiteral text)

/-- A documentation attribute whose text is a raw literal. -/
def rawDoc (text : String) : Attribute := docLiteral ("r\"" ++ text ++ "\"")

/-- An attribute that switches warnings off. -/
def lint (lints : List String) : Attribute :=
  tagged "allow" (commas (lints.map fun l => [word l]))

@[simp] theorem op_tokens (text : String) : treesTokens (op text) = operator text :=
  treesTokens_ofTokens _

@[simp] theorem list_tokens (ts : List Tree) : (list ts).tokens = treesTokens ts := rfl

theorem attributes_tokens (as : List Attribute) :
    (attributes as).tokens = as.flatMap Attribute.tokens :=
  treesTokens_map Tree.attribute as

@[simp] theorem bracket_tokens (d : Delimiter) (ts : List Tree) :
    (bracket d ts).tokens = [wrap d (treesTokens ts)] := rfl

@[simp] theorem body_tokens (ts : List Tree) : (body ts).tokens = braces (treesTokens ts) := rfl

@[simp] theorem commaTrees_tokens (xs : List (List Tree)) :
    treesTokens (commaTrees xs) = commas (xs.map treesTokens) := by
  rw [commaTrees, treesTokens_joinWith, op_tokens, commas]

@[simp] theorem segment_tokens (name : List Token) (arguments : Tree) :
    (segment name arguments).tokens = name ++ arguments.tokens := by
  simp [segment]

@[simp] theorem typeOf_tokens (path : List Tree) : (typeOf path).tokens = treesTokens path := by
  simp [typeOf]

@[simp] theorem valueOf_tokens (path : List Tree) : (valueOf path).tokens = treesTokens path := by
  simp [valueOf]

@[simp] theorem lit_tokens (ts : List Token) : (lit ts).tokens = ts := treesTokens_ofTokens ts

@[simp] theorem call_tokens (f : Tree) (arguments : List Tree) :
    (call f arguments).tokens = f.tokens ++ parens (treesTokens arguments) := by
  simp [call, parens]

@[simp] theorem refTo_tokens (e : Tree) : (refTo e).tokens = operator "&" ++ e.tokens := by
  simp [refTo]

@[simp] theorem statement_tokens (e : Tree) (semicolon : Bool) :
    (statement e semicolon).tokens = e.tokens ++ if semicolon then operator ";" else [] := by
  cases semicolon <;> simp [statement]

@[simp] theorem traitBound_tokens (modifier path : List Tree) :
    (traitBound modifier path).tokens = treesTokens modifier ++ treesTokens path := by
  simp [traitBound]

@[simp] theorem bounds_tokens (ts : List Tree) :
    (bounds ts).tokens = operator ":" ++ treesTokens ts := by
  simp [bounds]

@[simp] theorem typeParam_tokens (name : List Token) (bounds : Tree) :
    (typeParam name bounds).tree.tokens = name ++ bounds.tokens := by
  simp [typeParam, attributes_tokens]

theorem signature_tokens (name : Ident) (inputs : List Input) (output : Tree) :
    (signature none name inputs (some output) none).tokens =
      code "fn" ++ [name.token] ++ parens (commaTokens false (inputsTokens inputs))
        ++ operator "->" ++ output.tokens := by
  have inner : commaTokens false (inputsTokens inputs) ++ []
      = commaTokens false (inputsTokens inputs) := List.append_nil _
  show [_, _] ++ [wrap .parenthesis (commaTokens false (inputsTokens inputs) ++ [])]
    ++ (operator "->" ++ output.tokens) ++ [] = _
  rw [inner, List.append_nil]
  rfl

theorem function_tokens (as : List Attribute) (seen : Tree) (s : Signature) (ts : List Tree) :
    (function as seen s ts).tokens
      = as.flatMap Attribute.tokens ++ (seen.tokens ++ (s.tokens ++ braces (treesTokens ts))) := by
  rw [← attributes_tokens]
  rfl

@[simp] theorem single_tokens (name : List Token) : treesTokens (single name) = name := by
  simp [single]

@[simp] theorem generics_tree_tokens (g : Generics) : (Tree.generics g).tokens = g.tokens := rfl

theorem implementation_tokens (as : List Attribute) (g : Generics) (ofTrait type : Tree)
    (items : List Tree) : (implementation as g ofTrait type items).tokens
      = as.flatMap Attribute.tokens ++ (code "impl" ++ (g.tokens ++ (ofTrait.tokens
        ++ (type.tokens ++ braces (treesTokens items))))) := by
  rw [← attributes_tokens]
  simp only [implementation, node_tokens, treesTokens_cons, treesTokens_nil, List.append_nil,
    absent_tokens, List.nil_append, generics_tree_tokens, body_tokens]
  rfl

theorem forTrait_tokens (path : List Tree) :
    (forTrait path).tokens = treesTokens path ++ code "for" := by
  simp only [forTrait, node_tokens, treesTokens_cons, typeOf_tokens]
  rfl

end Build

open Build

/-! ## Type parameters -/

theorem patchedCommas_flags (xs : List (List Token)) :
    patchedCommas false (xs.zip (commaFlags false xs.length)) = commas xs := by
  match xs with
  | [] => rfl
  | [x] => simp [patchedCommas, commaFlags, commas, joinWith]
  | x :: y :: xs =>
      have more := patchedCommas_flags (y :: xs)
      simp only [List.length_cons, commaFlags, List.zip_cons_cons, patchedCommas, commas,
        joinWith] at more ⊢
      rw [Bool.not_true, more]
      simp

theorem paramsTokens_eq (ps : List GenericParam) :
    paramsTokens ps = ps.map fun p => (p.kind, p.tree.tokens) := by
  induction ps with
  | nil => rfl
  | cons p ps ih =>
      cases p
      rw [paramsTokens, ih]
      rfl

/-- None of the type parameters is moved to the front as a lifetime. -/
theorem partition_types (ys : List (List Token)) (flags : List Bool) :
    ((ys.map fun y => (ParamKind.type, y)).zip flags).partition (fun p => p.1.1 = .lifetime)
      = ([], (ys.map fun y => (ParamKind.type, y)).zip flags) := by
  have kinds : ∀ p ∈ (ys.map fun y => (ParamKind.type, y)).zip flags, p.1.1 = .type := by
    rintro ⟨⟨kind, y⟩, flag⟩ member
    obtain ⟨z, -, same⟩ := List.mem_map.mp (List.of_mem_zip member).1
    exact (congrArg Prod.fst same).symm
  rw [List.partition_eq_filter_filter]
  refine Prod.ext (List.filter_eq_nil_iff.mpr ?_) (List.filter_eq_self.mpr ?_) <;>
  · intro p member
    simp [kinds p member]

theorem generics_tokens_of_types {ps : List GenericParam} {ys : List (List Token)}
    (types : paramsTokens ps = ys.map fun y => (.type, y)) (some : ys ≠ []) :
    (Generics.mk ps false).tokens = operator "<" ++ commas ys ++ operator ">" := by
  have dropped : ((ys.map fun y => (ParamKind.type, y)).zip (commaFlags false ys.length)).map
      (fun p => (p.1.2, p.2)) = ys.zip (commaFlags false ys.length) := by
    rw [List.zip_map_left, List.map_map]
    exact List.map_id _
  have parted := partition_types ys (commaFlags false ys.length)
  obtain ⟨y, more, rfl⟩ := List.exists_cons_of_ne_nil some
  rw [← patchedCommas_flags, ← dropped, Generics.tokens, types]
  simp only [List.map_cons, List.length_cons, List.length_map] at parted ⊢
  rw [parted, List.nil_append]

/-- Type parameters between angle brackets. -/
theorem generics_tokens_typeParams (names : List (List Token)) (bounds : Tree) (some : names ≠ []) :
    (Generics.mk (names.map fun n => typeParam n bounds) false).tokens
      = operator "<" ++ commas (names.map fun n => n ++ bounds.tokens) ++ operator ">" := by
  refine generics_tokens_of_types ?_ (mt List.map_eq_nil_iff.mp some)
  rw [paramsTokens_eq, List.map_map, List.map_map]
  exact List.map_congr_left fun n _ => Prod.ext rfl (typeParam_tokens n bounds)

/-! ## Paths -/

def segmentsOf : Tree → List Tree
  | .node _ children => children
  | t => [t]

@[simp] theorem segmentsOf_tokens (t : Tree) : treesTokens (segmentsOf t) = t.tokens := by
  cases t with
  | node kind children => rfl
  | _ => exact List.append_nil _

/-- A path from the module two levels above. -/
def above : List Tree := single [word "super"] ++ op "::" ++ single [word "super"]

/-- The segments of a path that starts with this name, as it is seen two levels below. -/
def segmentsBelow (first : String) (path : Tree) (children : List Tree) : List Tree :=
  if first == "crate" then segmentsOf path
  else if first == "self" then
    above ++ ((elements children).drop 1).flatMap fun s => op "::" ++ [s]
  else if first == "super" then above ++ (op "::" ++ segmentsOf path)
  else segmentsOf path

/-- The segments of the path of the runtime crate, as it is seen two levels below. -/
def nestedSegments (path : Tree) : List Tree :=
  match path.children, firstName? path.children with
  | .token _ :: _, _ => segmentsOf path
  | _, some first => segmentsBelow first.text path path.children
  | _, none => segmentsOf path

theorem segmentsBelow_tokens (first : String) (path : Tree) (children : List Tree)
    (needed : Bool) : treesTokens (segmentsBelow first path children) =
      (if first == "crate" then (path.tokens, false)
        else if first == "self" then
          (code "super :: super" ++ ((elements children).drop 1).flatMap
            (fun s => operator "::" ++ s.tokens), false)
        else if first == "super" then (code "super :: super ::" ++ path.tokens, false)
        else (path.tokens, needed)).1 := by
  unfold segmentsBelow
  repeat' split
  · exact segmentsOf_tokens path
  · rw [treesTokens_append, treesTokens_flatMap]
    simp only [treesTokens_append, treesTokens_cons, treesTokens_nil, List.append_nil, op_tokens]
    rfl
  · rw [treesTokens_append, treesTokens_append, segmentsOf_tokens]
    rfl
  · exact segmentsOf_tokens path

theorem nestedSegments_tokens (path : Tree) :
    treesTokens (nestedSegments path) = (nestedRuntime path).1 := by
  unfold nestedSegments nestedRuntime
  match path.children, firstName? path.children with
  | .token _ :: _, _ => exact segmentsOf_tokens path
  | [], none => exact segmentsOf_tokens path
  | [], some first => exact segmentsBelow_tokens first.text path _ true
  | .group .. :: _, none | .node .. :: _, none | .attribute _ :: _, none | .generics _ :: _, none
  | .signature _ :: _, none | .trait _ :: _, none => exact segmentsOf_tokens path
  | .group .. :: _, some first | .node .. :: _, some first | .attribute _ :: _, some first
  | .generics _ :: _, some first | .signature _ :: _, some first | .trait _ :: _, some first =>
      exact segmentsBelow_tokens first.text path _ true

/-- The import of all that the parent module sees. -/
def parentImportItems (needed : Bool) : List Tree :=
  if needed then
    [.node .useItem
      [attributes [lint ["unused_imports"]], .absent, leaf "use", list [],
        .node .usePath ([leaf "super"] ++ op "::" ++ [.node .useGlob (op "*")]), list (op ";")]]
  else []

@[simp] theorem parentImportItems_tokens (needed : Bool) :
    treesTokens (parentImportItems needed) = parentImport needed := by
  cases needed <;> rfl

end LogInterface
