/-
# Proofs.Companion.Reader -- reading generated expressions

What is generated is read here as it is written, without the lists that it was made of.  Three
things are read: paths, by the names or the identifiers of their segments; what stands in a list
with commas; and the statements that write a message.

A statement writes a text or the value of a field, and the last expression of a body may write as
well.  `Tree.writes?` reads a whole body.  The body that is generated for a view reads as the
steps of the view, or as one empty text if it has none (`writes?_displayItem`).
-/
import LogInterface.Proofs.Companion.Items
import LogInterface.Proofs.Token.Literal

namespace LogInterface

open Token Build

set_option autoImplicit false

/-! ## Paths -/

namespace Tree

def segmentName? : Tree → Option String
  | .node .segment (.token (.ident text place) :: _) => some (Ident.name ⟨text, place⟩)
  | _ => none

def pathNames : Tree → List String
  | .node .pathExpr [.node .path segments] => segments.filterMap segmentName?
  | _ => []

def segmentIdent? : Tree → Option Ident
  | .node .segment (.token (.ident text place) :: _) => some ⟨text, place⟩
  | _ => none

/-- The segments of a path, as they are spelled. -/
def pathIdents : Tree → List Ident
  | .node .path segments => segments.filterMap segmentIdent?
  | .node .pathExpr [.node .path segments] => segments.filterMap segmentIdent?
  | _ => []

/-- Is it the path to something in the runtime crate? -/
def leadsTo (runtime : List Tree) (names : List String) (t : Tree) : Bool :=
  t.pathNames == runtime.filterMap segmentName? ++ names

def variableIdent? (t : Tree) : Option Ident :=
  match t.pathIdents with
  | [i] => some i
  | _ => none

def selfField? : Tree → Option Ident
  | .node .fieldAccess [self, _, .token (.ident text place)] =>
      if self.pathNames = ["self"] then some ⟨text, place⟩ else none
  | _ => none

def referred? : Tree → Option Tree
  | .node .referenceExpr [_, _, value] => some value
  | _ => none

/-- A call: the function and the arguments. -/
def call? : Tree → Option (Tree × List Tree)
  | .node .call [f, .group .parenthesis _ _ arguments] => some (f, elements arguments)
  | _ => none

/-- A function: its signature and the statements of its body. -/
def function? : Tree → Option (Signature × List Tree)
  | .node .functionItem [_, _, _, .signature s, .group .brace _ _ (_ :: statements)] =>
      some (s, statements)
  | _ => none

def text? : Tree → Option String
  | .node .literal [.token (.literal written _)] => Literal.string? written
  | _ => none

end Tree

theorem pathNames_inRuntime (runtime : List Tree) (names : List String) :
    (valueOf (inRuntime runtime names)).pathNames
      = runtime.filterMap Tree.segmentName? ++ (rooted names).filterMap Tree.segmentName? := by
  show (runtime ++ rooted names).filterMap Tree.segmentName? = _
  rw [List.filterMap_append]

/-- A path into the runtime crate leads there, unless a name in it is written raw. -/
theorem leadsTo_inRuntime (runtime : List Tree) (names : List String)
    (plain : (rooted names).filterMap Tree.segmentName? = names) :
    (valueOf (inRuntime runtime names)).leadsTo runtime names = true := by
  rw [Tree.leadsTo, pathNames_inRuntime, plain]
  exact beq_self_eq_true _

/-- The elements of a list with commas. -/
theorem elements_commaTrees {α : Type} {f : α → Tree} (xs : List α)
    (element : ∀ x, (f x).isElement = true) :
    elements (commaTrees (xs.map fun x => [f x])) = xs.map f := by
  have one (x : α) (ts : List Tree) : elements (f x :: ts) = f x :: elements ts :=
    List.filter_cons_of_pos (element x)
  induction xs with
  | nil => rfl
  | cons x xs ih =>
      cases xs with
      | nil => exact one x []
      | cons y xs => exact (one x _).trans (congrArg (f x :: ·) ih)

theorem mapM_eq_some {α β : Type} {f : α → Option β} {xs : List α} {ys : List β}
    (all : List.Forall₂ (fun x y => f x = some y) xs ys) : xs.mapM f = some ys := by
  induction all with
  | nil => rfl
  | cons first _ ih =>
      rw [List.mapM_cons, first, ih]
      rfl

/-! ## Messages -/

namespace Tree

/-- The text that an expression writes to the formatter. -/
def writtenText? : Tree → Option String
  | .node .methodCall [f, _, .token (.ident called _), _, .group .parenthesis _ _ [text]] =>
      if f.pathNames = ["f"] ∧ called = "write_str" then text.text? else none
  | _ => none

/-- The field whose value an expression gives as a reference. -/
def fieldValue? (runtime : List Tree) (t : Tree) : Option Ident := do
  let (convert, arguments) ← (← t.referred?).call?
  match arguments with
  | [field] => if convert.leadsTo runtime ["ToFieldValue", "to_field_value"] then
      (← field.referred?).selfField? else none
  | _ => none

/-- The field whose value an expression writes to the formatter. -/
def writtenField? (runtime : List Tree) (t : Tree) : Option Ident := do
  let (function, arguments) ← t.call?
  match arguments with
  | [value, f] =>
      if function.pathNames = ["core", "fmt", "Display", "fmt"] ∧ f.pathNames = ["f"] then
        value.fieldValue? runtime
      else none
  | _ => none

/-- What a statement writes.  Its question mark leaves the body if that fails. -/
def write? (runtime : List Tree) : Tree → Option Write
  | .node .exprStmt [.node .tryExpr (written :: _), _] =>
      (written.writtenText?.map Write.text).or ((written.writtenField? runtime).map Write.field)
  | _ => none

/-- What the last expression of a body writes: a text, or nothing if it is `Ok(())`. -/
def lastWrite? : Tree → Option (List Write)
  | .node .exprStmt [result, _] =>
      (result.writtenText?.map fun s => [Write.text s]).or <| result.call?.bind fun f =>
        if f.1.pathNames = ["core", "result", "Result", "Ok"] then some [] else none
  | _ => none

def writesAll? (runtime : List Tree) : List Tree → Option (List Write)
  | [] => none
  | [last] => last.lastWrite?
  | statement :: more => do return (← statement.write? runtime) :: (← writesAll? runtime more)

def writes? (runtime : List Tree) (t : Tree) : Option (List Write) :=
  t.function?.bind fun f => writesAll? runtime f.2

end Tree

namespace MethodModule

variable (m : MethodModule) (runtime : List Tree)

/-- The name of a field can be anything, and only the tree tells that it is one. -/
theorem fieldValue?_refTo (field : Ident) :
    (refTo (fieldTree runtime field)).fieldValue? runtime = some field := by
  have leads := leadsTo_inRuntime runtime ["ToFieldValue", "to_field_value"] rfl
  show (if (valueOf (inRuntime runtime ["ToFieldValue", "to_field_value"])).leadsTo runtime
    ["ToFieldValue", "to_field_value"] then some field else none) = some field
  rw [leads]
  rfl

theorem writtenText?_writeText (s : String) :
    (writeTree.writeText s).writtenText? = some s := by
  show (lit (stringLiteral s)).text? = some s
  exact Literal.string?_quotedLiteral s

/-- A statement reads as the step that it was written for. -/
theorem write?_writeTree (w : Write) : (writeTree runtime w).write? runtime = some w := by
  cases w with
  | text s =>
      show ((writeTree.writeText s).writtenText?.map Write.text).or _ = _
      rw [writtenText?_writeText]
      rfl
  | field field =>
      show ((refTo (fieldTree runtime field)).fieldValue? runtime).map Write.field = _
      rw [fieldValue?_refTo]
      rfl

theorem writesAll?_append (ws : List Write) {last : Tree} {end_ : List Write}
    (read : last.lastWrite? = some end_) :
    Tree.writesAll? runtime (ws.map (writeTree runtime) ++ [last]) = some (ws ++ end_) := by
  induction ws with
  | nil => exact read
  | cons w ws ih =>
      obtain ⟨next, rest, same⟩ : ∃ next rest, ws.map (writeTree runtime) ++ [last] = next :: rest :=
        List.exists_cons_of_ne_nil (by simp)
      rw [List.map_cons, List.cons_append, same, Tree.writesAll?, ← same, ih, write?_writeTree]
      · rfl
      · exact nofun

/-- **What the generated body writes**: the steps of the view. -/
theorem writes?_displayItem :
    (m.displayItem runtime).writes? runtime
      = some (if m.writes.isEmpty then [.text ""] else m.writes) := by
  unfold displayItem
  split
  · show ((writeTree.writeText "").writtenText?.map fun s => [Write.text s]).or none = _
    rw [writtenText?_writeText]
    rfl
  · have last : Tree.lastWrite? (statement (call (valueOf (rooted ["core", "result", "Result", "Ok"]))
        [.node .tupleExpr [bracket .parenthesis []]]) false) = some [] := rfl
    exact (writesAll?_append runtime m.writes last).trans (by rw [List.append_nil])

end MethodModule

end LogInterface
