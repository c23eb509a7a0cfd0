/-
# Proofs.Companion.ReadsCompanion -- companions are read

A companion is seven items: the hidden module, the extension trait and its implementation, the
wrapper and its methods, the implementation of the interface, and the list of events.  They are read
as items if what they copy from the trait can be read where it is put: the visibility in front of
items, the path of the runtime crate, the documentation of the methods, and their signatures in
front of a block (`Companion.IsReadable`).  And every name in them has to be a name, that of the
companion too: behind the word `struct` stands no keyword.
-/
import LogInterface.Proofs.Companion.ReadsView

namespace LogInterface

open Token
open LogInterface.Parser hiding operator word literal name fieldValue

set_option autoImplicit false

variable {n : Nat} {runtime : List Token}

/-! ## Methods of the extension trait -/

section

variable {hidden : Ident}

theorem isPathTo_inModule {module : Ident} {name : String} (outer : hidden.text ∉ keywords)
    (inner : module.text ∉ keywords) (isWord : IsWord name.toList) (ordinary : name ∉ keywords) :
    IsPathTo ⟨name, .nowhere⟩ (inModule hidden module name) := by
  have spaced : ":: " ++ name = "::" ++ " " ++ name := rfl
  have path := ((IsSegment.path (.inl outer)).path.to (.inl inner)).path.to
    (i := ⟨name, .nowhere⟩) (.inl ordinary)
  rw [inModule, spaced, code_append, code_of_isWord isWord]
  simp only [List.append_assoc] at path ⊢
  exact path

theorem isPathTo_level (path : IsPath runtime) (l : Level) :
    IsPathTo ⟨l.name, .nowhere⟩ (levelTokens runtime l) := by
  cases l <;> exact path.inside ["Level"] _ (by decide)

namespace ExtensionMethod

variable {y : ExtensionMethod}

theorem isValue_capture (outer : hidden.text ∉ keywords) (inner : y.module.text ∉ keywords)
    (ordinary : ∀ i ∈ y.captures, i.text ∉ keywords) : IsValue 5 true (y.capture hidden) := by
  have view : IsPathTo ⟨"Fields", .nowhere⟩ (inModule hidden y.module "Fields") :=
    isPathTo_inModule outer inner (by decide) (by decide)
  have fields : ∀ ts ∈ y.captures.map fun i => [i.token] ++ code ": &" ++ [i.token],
      IsFieldValue 3 ts := by
    rw [List.forall_mem_map]
    exact fun i member => .value (ordinary i member) (isValue_name (ordinary i member)).reference
  rw [capture]
  split
  · exact view.alone (by decide)
  · have filled := view.struct (by decide) fields
    rw [commaTokens_false] at filled
    exact filled

/-- The body that logs is read, statement by statement. -/
theorem isBody_body (path : IsPath runtime) (outer : hidden.text ∉ keywords)
    (inner : y.module.text ∉ keywords) (ordinary : ∀ i ∈ y.captures, i.text ∉ keywords) :
    IsBody 10 (y.body runtime hidden) := by
  have level {m : Nat} : IsValue (m + 2) true (levelTokens runtime y.level) :=
    (isPathTo_level path y.level).alone (by cases y.level <;> decide)
  have self {m : Nat} : IsValue (m + 2) true (code "self") :=
    (isPathTo_word (.inr (by decide))).alone (by decide)
  have enabled : IsValue 4 false _ :=
    (path.inside ["Logger"] "is_enabled" (by decide)).call (by decide) false
      (forall_mem_pair self level)
  have leave : IsBody 5 ([code "return ;"].flatten ++ []) :=
    (isBody (List.forall_mem_singleton.mpr isStatement_return) (.inl rfl)).mono (by decide)
  have guard := (isStatement_if (enabled.sign (.inr rfl)) leave).mono (by decide : 7 ≤ 9)
  have held := (isValue_capture outer inner ordinary).bound (i := ⟨"__fields", .nowhere⟩)
    (by decide)
  have event : IsValue 3 true (inModule hidden y.module "EVENT") :=
    (isPathTo_inModule outer inner (by decide) (by decide)).alone (by decide)
  have view : IsValue 3 true (code "& __fields") :=
    (isValue_name (n := 0) (i := ⟨"__fields", .nowhere⟩) (by decide)).reference
  have record : IsValue 5 true _ :=
    (path.inside ["Record"] "new" (by decide)).call (by decide) false
      (List.forall_mem_cons.mpr
        ⟨level, List.forall_mem_cons.mpr ⟨event, forall_mem_pair view view⟩⟩)
  have logged : IsValue 8 true _ := (path.inside ["Logger"] "log" (by decide)).call (by decide) true
    (forall_mem_pair self record.reference)
  have log := logged.statement fun us => by
    rw [List.append_assoc, List.append_assoc]
    exact (path.ahead _).noWord (by decide)
  have body := isBody (List.forall_mem_cons.mpr
    ⟨guard, forall_mem_pair (held.mono (by decide)) log⟩) (.inl rfl)
  simp only [ExtensionMethod.body, within, commaTokens, Bool.false_eq_true, reduceIte,
    List.append_assoc, List.flatten_cons, List.flatten_nil, List.append_nil] at body ⊢
  exact body

/-- A method of the extension trait is read with its documentation. -/
theorem isTraitItem_tokens (path : IsPath runtime) (outer : hidden.text ∉ keywords)
    (inner : y.module.text ∉ keywords) (ordinary : ∀ i ∈ y.captures, i.text ∉ keywords)
    (docs : ∀ a ∈ y.docs, IsAttribute n a.tokens) (signed : IsSignature n y.signature.tokens)
    (deep : 10 ≤ n) : IsTraitItem n (y.tokens runtime hidden) := by
  have blank : ∀ ts ∈ if y.docs.isEmpty then [] else [documentation ""], IsAttribute n ts := by
    split
    · exact List.forall_mem_nil _
    · exact List.forall_mem_singleton.mpr (isAttribute_documentation _)
  have summary := List.forall_mem_singleton.mpr (isAttribute_documentation (n := n) y.summary)
  have attributes := List.forall_mem_append.mpr
    ⟨List.forall_mem_map.mpr docs, List.forall_mem_append.mpr ⟨blank, summary⟩⟩
  have item := isTraitItem attributes signed ((isBody_body path outer inner ordinary).mono deep)
  have flat : (if y.docs.isEmpty then [] else [documentation ""]).flatten
      = if y.docs.isEmpty then [] else documentation "" := by
    split <;> simp
  rw [List.flatten_append, List.flatten_append, flat, ← List.flatMap_def] at item
  simp only [tokens, List.append_assoc, List.flatten_cons, List.flatten_nil,
    List.append_nil] at item ⊢
  exact item

end ExtensionMethod

end

/-! ## Methods of the wrapper -/

/-- A method of the wrapper is read: it has a signature and one call. -/
theorem WrapperMethod.isMember_tokens {w : WrapperMethod} {extension : Ident}
    (outer : extension.text ∉ keywords) (target : w.target.text ∉ keywords)
    (ordinary : ∀ i ∈ w.arguments, i.text ∉ keywords) (signed : IsSignature n w.signature.tokens)
    (deep : 7 ≤ n) : IsMember n (w.tokens extension) := by
  have logger : IsValue 3 true (code "& self . logger") :=
    (isValue_selfField (i := ⟨"logger", .nowhere⟩) (by decide)).reference
  have others : ∀ ts ∈ w.arguments.map fun i => [i.token], IsValue 3 true ts :=
    List.forall_mem_map.mpr fun i member => isValue_name (ordinary i member)
  have called : IsValue 5 true _ := ((IsSegment.path (.inl outer)).path.to (.inl target)).call
    (fun same => target (same ▸ by decide)) w.arguments.isEmpty
    (List.forall_mem_cons.mpr ⟨logger, others⟩)
  have body := isBody_value called
    (fun us => startsWord_name outer (by decide) _) deep
  have member := isMember (List.forall_mem_nil _) .none signed body
  -- Without other arguments the comma behind the logger is a trailing one.
  have inputs : commaTokens w.arguments.isEmpty
      (code "& self . logger" :: w.arguments.map fun i => [i.token])
        = code "& self . logger ," ++ commas (w.arguments.map fun i => [i.token]) := by
    cases w.arguments with
    | nil => rfl
    | cons i is =>
        rw [← commaTokens_false]
        rfl
  rw [inputs] at member
  simp only [tokens, List.append_assoc, List.flatten_nil, List.nil_append] at member ⊢
  exact member

/-! ## Items -/

namespace Companion

variable {c : Companion}

/-- Every grammar that nests this deep reads what the companion copies from its trait, and all
names are names. -/
structure IsReadable (n : Nat) (c : Companion) : Prop where
  interface : c.interface.text ∉ keywords
  own : ∀ i ∈ [c.name, Naming.extensionTrait c.name, Naming.hiddenModule c.name,
    Naming.eventsConst c.name, Naming.intoCompanion c.name], i.text ∉ keywords
  modules : ∀ x ∈ c.modules, ∀ s ∈ x.names, s ∉ keywords
  extensions : ∀ y ∈ c.extensions, ∀ s ∈ y.names, s ∉ keywords
  wrappers : ∀ w ∈ c.wrappers, ∀ s ∈ w.names, s ∉ keywords
  events : ∀ i ∈ c.events, i.text ∉ keywords
  visibility : IsVisibility c.visibility.tokens
  runtime : IsPath c.runtime.tokens
  nested : IsPath (nestedRuntime c.runtime).1
  /-- Only fields of a view are written. -/
  written : ∀ x ∈ c.modules, ∀ i, .field i ∈ x.writes → i ∈ x.fields
  docs : ∀ y ∈ c.extensions, ∀ a ∈ y.docs, IsAttribute n a.tokens
  signatures : ∀ y ∈ c.extensions, IsSignature n y.signature.tokens
  wrapped : ∀ w ∈ c.wrappers, IsSignature n w.signature.tokens

namespace IsReadable

variable (readable : c.IsReadable n)

include readable

theorem name : c.name.text ∉ keywords := readable.own _ (by simp)

theorem hidden : (Naming.hiddenModule c.name).text ∉ keywords := readable.own _ (by simp)

theorem extension : (Naming.extensionTrait c.name).text ∉ keywords := readable.own _ (by simp)

theorem isItem_hidden : IsItem 16 c.hiddenTokens := by
  have modules : ∀ ts ∈ c.modules.map
      (·.tokens (nestedRuntime c.runtime).1 (nestedRuntime c.runtime).2), IsItem 15 ts := by
    rw [List.forall_mem_map]
    intro x member
    obtain ⟨named, others⟩ := List.forall_mem_cons.mp (readable.modules x member)
    have fields := List.forall_mem_map.mp (List.forall_mem_append.mp others).2
    exact MethodModule.isItem_module readable.nested _ named fields
      fun i written => fields i (readable.written x member i written)
  obtain ⟨ys, same, each⟩ := ((MethodModule.isItems_parentImport
    (nestedRuntime c.runtime).2).mono (by decide)).append ⟨_, rfl, modules⟩
  have noDocs : IsAttribute 16 (marker (code "doc" ++ parens (code "hidden"))) :=
    (isAttribute_list (i := ⟨"doc", .nowhere⟩) (by decide)).mono (by decide)
  have item := isItem_mod (forall_mem_pair noDocs
    (isAttribute_allow ["non_snake_case", "non_camel_case_types"])) .none readable.hidden each
  rw [← same, ← List.flatMap_def] at item
  simp only [hiddenTokens, List.append_assoc, List.flatten_cons, List.flatten_nil, List.append_nil,
    List.nil_append] at item ⊢
  exact item

/-- The method that wraps a logger. -/
theorem isTraitItem_into (deep : 15 ≤ n) : IsTraitItem n
    (rawDocumentation " Wraps this logger in a value implementing the logging trait."
      ++ code "fn" ++ [(Naming.intoCompanion c.name).token] ++ parens (code "self")
      ++ operator "->" ++ [c.name.token]
      ++ code "< Self > where Self : :: core :: marker :: Sized ,"
      ++ braces ([c.name.token] ++ code ":: new" ++ parens (code "self"))) := by
  have own := IsSegment.path (.inl readable.name)
  have self := (isPathTo_word (w := "Self") (.inr (by decide))).path
  have type := own.angleType .alone .nowhere readable.name
    (List.forall_mem_singleton.mpr (self.type.argument self.ahead))
  have sized := (core.inside ["marker"] "Sized" (by decide)).path.bound
  have clause := IsClause.bounds (n := n) (self.type.mono (by omega)) self
    (List.forall_mem_singleton.mpr (sized.mono (by omega)))
  have input := isInputs_cons ((isInput_receiver (.inl rfl)).mono (Nat.zero_le n))
    (List.forall_mem_nil _)
  have signed := isSignature (.inl rfl) (readable.own (Naming.intoCompanion c.name) (by simp)) input
    (.type (type.mono (by omega))) clause
  have logger : IsValue 2 true (code "self") :=
    (isPathTo_word (.inr (by decide))).alone (by decide)
  have made : IsValue 4 true _ := (own.path.to (i := ⟨"new", .nowhere⟩) (.inl (by decide))).call
    (by decide) false (List.forall_mem_singleton.mpr logger)
  have body := isBody_value made
    (fun us => startsWord_name readable.name (by decide) _)
    (by omega : 4 + 2 ≤ n)
  have item := isTraitItem (List.forall_mem_singleton.mpr (isAttribute_rawDocumentation
    " Wraps this logger in a value implementing the logging trait.")) signed body
  simp only [List.append_assoc, List.flatten_cons, List.flatten_nil, List.append_nil,
    List.nil_append] at item ⊢
  exact item

theorem isItems_extension (deep : 15 ≤ n) : IsItems (n + 1) c.extensionTokens := by
  have attributes := forall_mem_pair (isAttribute_documentation (n := n + 1) c.extensionDoc)
    (isAttribute_allow ["non_snake_case", "dead_code"])
  have each : ∀ ts ∈ c.extensions.map (·.tokens c.runtime.tokens (Naming.hiddenModule c.name)),
      IsTraitItem n ts := by
    refine List.forall_mem_map.mpr fun y member => ?_
    obtain ⟨-, others⟩ := List.forall_mem_cons.mp (readable.extensions y member)
    obtain ⟨inner, captures⟩ := List.forall_mem_cons.mp others
    have captured := List.forall_mem_map.mp captures
    exact ExtensionMethod.isTraitItem_tokens readable.runtime readable.hidden inner captured
      (readable.docs y member) (readable.signatures y member) (by omega)
  have methods := List.forall_mem_append.mpr
    ⟨each, List.forall_mem_singleton.mpr (readable.isTraitItem_into deep)⟩
  have logger := (readable.runtime.inside [] "Logger" (by decide)).path.bound.mono
    (by omega : 1 ≤ n)
  have trait := isItem_trait attributes readable.visibility readable.extension logger methods
  have unsized : IsBound 1 (code "? :: core :: marker :: Sized") :=
    (core.inside ["marker"] "Sized" (by decide)).path.maybeBound
  have param := isParam_name (i := ⟨"L", .nowhere⟩) (by decide)
    (forall_mem_pair logger (unsized.mono (by omega)))
  have type : IsType 1 (code "L") := isType_word (.inl (by decide))
  have extension := (IsSegment.path (.inl readable.extension)).path.type
  have implementation := isItem_impl (List.forall_mem_nil _)
    (.params false (by decide) (List.forall_mem_singleton.mpr param))
    (.trait (extension.mono (by omega)) (type.mono (by omega)) (.word (.inl readable.extension) []))
    (List.forall_mem_nil _)
  have items := trait.and (implementation.and .nothing)
  rw [List.flatten_append, ← List.flatMap_def] at items
  simp only [extensionTokens, within, colonTokens, joinWith, commaTokens, List.append_assoc,
    List.flatten_cons, List.flatten_nil, List.append_nil, List.nil_append] at items ⊢
  exact items

/-! ## The wrapper -/

/-- The type of the wrapper around loggers of a type `L`. -/
theorem isType_wrapper : IsType 2 ([c.name.token] ++ code "< L >") := by
  have logger := (isPathTo_word (w := "L") (.inl (by decide))).path
  exact (IsSegment.path (.inl readable.name)).angleType .alone .nowhere readable.name
    (List.forall_mem_singleton.mpr (logger.type.argument logger.ahead))

/-- A method of the wrapper itself, with its documentation. -/
theorem isMember_documented (s : String) {const result input content : List Token} {i : Ident}
    {received : Bool} (constness : const = [] ∨ const = [word "const"])
    (ordinary : i.text ∉ keywords) (isInput : IsInput 7 received input) (isType : IsType 7 result)
    (body : IsBody 7 content) :
    IsMember 7 (rawDocumentation s ++ (c.visibility.tokens ++ (const ++ (code "fn" ++ ([i.token]
      ++ (parens input ++ (operator "->" ++ (result ++ braces content)))))))) := by
  have signed := isSignature constness ordinary (isInputs_cons isInput (List.forall_mem_nil _))
    (.type isType) .none
  have member := isMember (List.forall_mem_singleton.mpr (isAttribute_rawDocumentation s))
    readable.visibility signed body
  simp only [commaTokens, Bool.false_eq_true, reduceIte, List.append_assoc, List.flatten_cons,
    List.flatten_nil, List.append_nil] at member
  exact member

theorem isItem_struct : IsItem 8
    (documentation
        (" A `" ++ c.interface.text ++ "` implementation that logs through a wrapped logger.")
      ++ (marker (code "derive" ++ parens (code "Debug , Clone")) ++ (allow ["dead_code"]
      ++ (c.visibility.tokens ++ (code "struct" ++ ([c.name.token]
      ++ (code "< L >" ++ braces (code "logger : L ,")))))))) := by
  have derived : IsAttribute 8 (marker (code "derive" ++ parens (code "Debug , Clone"))) :=
    (isAttribute_list (i := ⟨"derive", .nowhere⟩) (by decide)).mono (by decide)
  have attributes := List.forall_mem_cons.mpr ⟨isAttribute_documentation
      (" A `" ++ c.interface.text ++ "` implementation that logs through a wrapped logger."),
    forall_mem_pair derived (isAttribute_allow ["dead_code"])⟩
  have param : IsParam 7 (code "L") :=
    isParam_name (i := ⟨"L", .nowhere⟩) (by decide) (List.forall_mem_nil _)
  have type : IsType 1 (code "L") := isType_word (.inl (by decide))
  have field : IsField 7 (code "logger : L") :=
    .named (i := ⟨"logger", .nowhere⟩) .none (by decide) (type.mono (by decide))
  have item := Parser.isItem_struct attributes readable.visibility readable.name
    (.params false (List.forall_mem_singleton.mpr param))
    (.inr ⟨true, _, rfl, List.forall_mem_singleton.mpr field⟩)
  simp only [List.append_assoc, List.flatten_cons, List.flatten_nil, List.append_nil] at item
  exact item

theorem isItems_wrapper : IsItems 8 c.wrapperTokens := by
  have type : IsType 1 (code "L") := isType_word (.inl (by decide))
  have self : IsType 1 (code "Self") := isType_word (.inr (by decide))
  have made : IsValue 2 true (code "Self" ++ braces (code "logger")) :=
    (isPathTo_word (.inr (by decide))).struct (by decide)
      (List.forall_mem_singleton.mpr (.name (i := ⟨"logger", .nowhere⟩) (by decide)))
  have held : IsValue 2 true (code "self . logger") :=
    isValue_selfField (i := ⟨"logger", .nowhere⟩) (by decide)
  have new := readable.isMember_documented " Wraps `logger`." (.inr rfl)
    (i := ⟨"new", .nowhere⟩) (by decide)
    ((type.input (i := ⟨"logger", .nowhere⟩) (by decide) fun _ => rfl).mono (by decide))
    (self.mono (by decide)) (isBody_value made (fun _ => rfl) (by decide))
  have borrowed := readable.isMember_documented " Returns the wrapped logger." (.inl rfl)
    (i := ⟨"logger", .nowhere⟩) (by decide) (isInput_self 7)
    ((type.reference (.inl rfl) fun _ => ⟨rfl, rfl⟩).mono (by decide))
    (isBody_value held.reference (fun _ => rfl) (by decide))
  have unwrapped := readable.isMember_documented " Unwraps the logger." (.inl rfl)
    (i := ⟨"into_inner", .nowhere⟩) (by decide) ((isInput_receiver (.inl rfl)).mono (by decide))
    (type.mono (by decide)) (isBody_value held (fun _ => rfl) (by decide))
  have param := isParam_name (n := 7) (i := ⟨"L", .nowhere⟩) (by decide) (List.forall_mem_nil _)
  have implementation := isItem_impl
    (List.forall_mem_singleton.mpr (isAttribute_allow ["dead_code"]))
    (.params false (by decide) (List.forall_mem_singleton.mpr param))
    (.type (readable.isType_wrapper.mono (by decide)) (.word (.inl readable.name) _))
    (List.forall_mem_cons.mpr ⟨new, forall_mem_pair borrowed unwrapped⟩)
  have items := readable.isItem_struct.and (implementation.and .nothing)
  simp only [wrapperTokens, colonTokens, List.append_assoc, List.flatten_cons, List.flatten_nil,
    List.append_nil, List.nil_append] at items ⊢
  exact items

/-- The implementation of the interface. -/
theorem isItem_implementation (deep : 15 ≤ n) : IsItem (n + 1) c.implementationTokens := by
  have logger := (readable.runtime.inside [] "Logger" (by decide)).path.bound.mono
    (by omega : 1 ≤ n)
  have param := isParam_name (i := ⟨"L", .nowhere⟩) (by decide)
    (List.forall_mem_singleton.mpr logger)
  have interface := (IsSegment.path (.inl readable.interface)).path.type
  have each : ∀ ts ∈ c.wrappers.map (·.tokens (Naming.extensionTrait c.name)), IsMember n ts := by
    refine List.forall_mem_map.mpr fun w member => ?_
    obtain ⟨-, others⟩ := List.forall_mem_cons.mp (readable.wrappers w member)
    obtain ⟨target, arguments⟩ := List.forall_mem_cons.mp others
    have passed := List.forall_mem_map.mp arguments
    exact WrapperMethod.isMember_tokens readable.extension target passed
      (readable.wrapped w member) (by omega)
  have item := isItem_impl (List.forall_mem_singleton.mpr (isAttribute_allow ["non_snake_case"]))
    (.params false (by decide) (List.forall_mem_singleton.mpr param))
    (.trait (interface.mono (by omega)) (readable.isType_wrapper.mono (by omega))
      (.word (.inl readable.interface) [])) each
  rw [← List.flatMap_def] at item
  simp only [implementationTokens, within, colonTokens, joinWith, commaTokens, List.append_assoc,
    List.flatten_cons, List.flatten_nil, List.append_nil, List.nil_append] at item ⊢
  exact item

/-- The list of events. -/
theorem isItem_events : IsItem 7 c.eventsTokens := by
  have attributes := forall_mem_pair (isAttribute_documentation (n := 7)
      (" Event ids of `" ++ c.interface.text ++ "`, in declaration order."))
    (isAttribute_allow ["dead_code"])
  have id := (readable.runtime.inside [] "EventId" (by decide)).path.type
  have type := ((id.slice .nowhere .nowhere).reference (.inl rfl) fun _ => ⟨rfl, rfl⟩).mono
    (by decide : 3 ≤ 5)
  have each : ∀ ts ∈ c.events.map fun m => inModule (Naming.hiddenModule c.name) m "EVENT",
      IsValue 2 true ts := by
    refine List.forall_mem_map.mpr fun m member => ?_
    exact (isPathTo_inModule readable.hidden (readable.events m member) (by decide)
      (by decide)).alone (by decide)
  have list : IsValue 4 true _ := isValue_array each
  have item := isItem_const attributes readable.visibility
    (readable.own (Naming.eventsConst c.name) (by simp)) type list.reference
  rw [commaTokens_false] at item
  simp only [eventsTokens, within, List.append_assoc, List.flatten_cons, List.flatten_nil,
    List.append_nil, List.nil_append] at item ⊢
  exact item

/-- **The tokens of a companion are read as items.** -/
theorem isItems (deep : 15 ≤ n) : IsItems (n + 1) c.tokens := by
  have hidden := (readable.isItem_hidden.mono (by omega : 16 ≤ n + 1)).and .nothing
  have wrapper := readable.isItems_wrapper.mono (by omega : 8 ≤ n + 1)
  have implementation := (readable.isItem_implementation deep).and .nothing
  have events := (readable.isItem_events.mono (by omega : 7 ≤ n + 1)).and .nothing
  rw [List.append_nil] at hidden implementation events
  exact (((hidden.append (readable.isItems_extension deep)).append wrapper).append
    implementation).append events

end IsReadable

end Companion

end LogInterface
