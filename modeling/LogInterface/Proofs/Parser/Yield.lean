/-
# Proofs.Parser.Yield -- what a parser answers

`Parser.Yields p holds` says that whatever `p` answers, `holds` is true of it.  One
lemma for each way to put parsers together takes such a fact from the parts of a
parser to the whole, so a fact about trees is proved along the text of the parser that
makes them.

Three facts are needed about what was read, and all follow from where it was read:

* a method without a body has no attributes of the inner kind, since these stand in the
  body (`traits_outer`);
* the path of a runtime crate that an annotation names is a plain path
  (`runtime_plain`);
* an event id that a message declares has 32 bits (`event_fits`).
-/
import LogInterface.Interface.Arguments
import LogInterface.Proofs.Interface.Described
import LogInterface.Proofs.Token.Word

namespace LogInterface

set_option autoImplicit false

/-- Without a body there are no attributes inside it. -/
def Method.Outer (m : Method) : Prop := m.body = none → ∀ a ∈ m.attributes, a.inner = false

namespace Parser

variable {α β : Type}

/-- Whatever the parser answers, this holds of it. -/
def Yields (p : Parser α) (holds : α → Prop) : Prop :=
  ∀ s a s', p s = .ok (a, s') → holds a

theorem yields_pure {a : α} {holds : α → Prop} (always : holds a) :
    Yields (pure a) holds := by
  intro s b s' answered
  cases answered
  exact always

theorem yields_bind {p : Parser α} {f : α → Parser β} {first : α → Prop} {holds : β → Prop}
    (ahead : p.Yields first) (rest : ∀ a, first a → (f a).Yields holds) :
    Yields (p >>= f) holds := by
  intro s b s' answered
  obtain ⟨⟨a, middle⟩, read, answered⟩ := exists_of_bind_ok answered
  exact rest a (ahead s a middle read) middle b s' answered

/-- What was read first does not matter. -/
theorem yields_after {p : Parser α} {f : α → Parser β} {holds : β → Prop}
    (rest : ∀ a, (f a).Yields holds) : Yields (p >>= f) holds :=
  yields_bind (fun _ _ _ _ => trivial) fun a (_ : True) => rest a

theorem yields_throw {e : ParseError} {holds : α → Prop} :
    Yields (throw e : Parser α) holds := by
  intro s a s' answered
  cases answered

theorem yields_failHere {c : Complaint} {holds : α → Prop} : Yields (failHere c) holds :=
  yields_after fun _ => yields_after fun _ => yields_throw

theorem yields_failExpecting {choices : List String} {holds : α → Prop} :
    Yields (failExpecting choices) holds := yields_failHere

theorem yields_ite {c : Prop} [Decidable c] {p q : Parser α} {holds : α → Prop}
    (yes : p.Yields holds) (no : q.Yields holds) : Yields (if c then p else q) holds := by
  split
  · exact yes
  · exact no

/-! ## Groups and lists -/

theorem yields_inside {d : Delimiter} {p : Parser α} {holds : α → Prop} (content : p.Yields holds) :
    Yields (inside d p) fun i => holds i.value := by
  have opened : (insideOpen d p).Yields fun i => holds i.value := by
    refine yields_after fun ts => ?_
    split
    · split
      · exact yields_after fun _ => yields_after fun _ => yields_bind content fun a within =>
          yields_after fun _ => yields_after fun _ => yields_pure within
      · exact yields_failExpecting
    · exact yields_failExpecting
  exact yields_bind opened fun i within => yields_after fun _ => yields_pure within

theorem yields_many {p : Parser α} {holds : α → Prop} (each : p.Yields holds) :
    Yields (many p) fun as => ∀ a ∈ as, holds a := by
  unfold many
  refine yields_after fun fuel => ?_
  induction fuel with
  | zero => exact yields_pure (List.forall_mem_nil _)
  | succ fuel ih =>
      refine yields_after fun ts => ?_
      split
      · exact yields_pure (List.forall_mem_nil _)
      · exact yields_bind each fun a first => yields_bind ih fun as others =>
          yields_pure (List.forall_mem_cons.mpr ⟨first, others⟩)

/-! ## Attributes -/

theorem yields_attributeContent (g : Grammar) (inner : Bool) (place : Place) :
    (attributeContent g inner place).Yields fun a => a.inner = inner := by
  refine yields_after fun ts => ?_
  split
  · exact yields_after fun _ => yields_after fun _ => yields_pure rfl
  · exact yields_after fun _ => yields_after fun _ => yields_pure rfl

theorem yields_oneAttribute (g : Grammar) (inner : Bool) :
    (oneAttribute g inner).Yields fun a => a.inner = inner := by
  have rest (place : Place) : Yields (do
      return (← inside .bracket (attributeContent g inner place)).value) fun a =>
        a.inner = inner :=
    yields_bind (yields_inside (yields_attributeContent g inner place)) fun i same =>
      yields_pure same
  refine yields_after fun place => yields_after fun _ => ?_
  split
  · exact yields_after fun _ => rest place
  · exact rest place

theorem yields_outerAttributes (g : Grammar) :
    (outerAttributes g).Yields fun as => ∀ a ∈ as, a.inner = false := by
  refine yields_after fun fuel => ?_
  induction fuel with
  | zero => exact yields_pure (List.forall_mem_nil _)
  | succ fuel ih =>
      refine yields_after fun ts => ?_
      split
      · exact yields_bind (yields_oneAttribute g false) fun a first => yields_bind ih
          fun as others => yields_pure (List.forall_mem_cons.mpr ⟨first, others⟩)
      · exact yields_pure (List.forall_mem_nil _)

/-! ## Methods -/

theorem yields_method (g : Grammar) {attributes : List Attribute}
    (outer : ∀ a ∈ attributes, a.inner = false) : (method g attributes).Yields Method.Outer := by
  refine yields_after fun s => yields_after fun ts => ?_
  split
  · exact yields_after fun i => yields_pure (fun none => nomatch none)
  · split
    · exact yields_after fun _ => yields_pure fun _ => outer
    · exact yields_failExpecting

/-! ## Traits -/

theorem yields_plainTraitItem (g : Grammar) (before : List Token) {attributes : List Attribute}
    (outer : ∀ a ∈ attributes, a.inner = false) (plain : Bool) :
    (plainTraitItem g before attributes plain).Yields fun i =>
      ∀ m, i = .method m → m.Outer := by
  have isMethod : Yields (do return .method (← method g attributes)) fun i : TraitItem =>
      ∀ m, i = .method m → m.Outer :=
    yields_bind (yields_method g outer) fun m holds => yields_pure fun m' same => by
      cases same
      exact holds
  have other (p : Parser Tree) : Yields (do return .other (← p)) fun i : TraitItem =>
      ∀ m, i = .method m → m.Outer :=
    yields_after fun t => yields_pure fun m same => nomatch same
  refine yields_after fun ts => ?_
  repeat' split
  · exact isMethod
  · exact other _
  · exact isMethod
  · exact yields_after fun _ => yields_failExpecting
  · exact yields_after fun d => yields_pure fun m same => nomatch same
  · exact other _
  all_goals exact yields_failExpecting

theorem yields_traitItem (g : Grammar) :
    (traitItem g).Yields fun i => ∀ m, i = .method m → m.Outer := by
  refine yields_after fun before => yields_bind (yields_outerAttributes g) fun attributes outer =>
    yields_after fun seen => yields_after fun preset =>
      yields_bind (yields_plainTraitItem g before outer _) fun item holds => ?_
  split
  · exact yields_pure holds
  · exact yields_after fun _ => yields_pure fun m same => nomatch same

end Parser

/-- Every method of the trait has its inner attributes in a body. -/
def TraitDecl.Outer (t : TraitDecl) : Prop := ∀ m ∈ t.methods, m.Outer

namespace Parser

theorem yields_traitBody (g : Grammar) (h : TraitHead) :
    (traitBody g h).Yields TraitDecl.Outer := by
  have content : Yields (do
      let inner ← innerAttributes g
      return (inner, ← many (traitItem g))) fun c : List Attribute × List TraitItem =>
        ∀ i ∈ c.2, ∀ m, i = .method m → m.Outer :=
    yields_after fun inner => yields_bind (yields_many (yields_traitItem g)) fun items each =>
      yields_pure each
  refine yields_after fun colon => ?_
  have rest (supertraits : List Tree) (trailingPlus : Bool) : Yields (do
      let clause ← whereClause? g
      let i ← inside .brace (do
        let inner ← innerAttributes g
        return (inner, ← many (traitItem g)) : Parser (List Attribute × List TraitItem))
      return ({
        attributes := h.attributes ++ i.value.1
        visibility := h.visibility
        unsafety := h.unsafety
        auto := h.auto
        keyword := h.keyword
        name := h.name
        generics := h.generics
        supertraits := elements supertraits
        trailingPlus
        clause
        items := i.value.2 } : TraitDecl)) TraitDecl.Outer := by
    refine yields_after fun clause => yields_bind (yields_inside content) fun i each =>
      yields_pure fun m member => ?_
    obtain ⟨item, inItems, isMethod⟩ := List.mem_filterMap.mp member
    cases item with
    | method _ =>
        cases isMethod
        exact each _ inItems m rfl
    | other _ => cases isMethod
  split
  · exact rest [] _
  · exact yields_after fun supertraits => rest supertraits _

/-- An item that is a trait has its inner attributes in bodies. -/
def Orderly (item : Tree) : Prop := ∀ t, item = .trait t → t.Outer

theorem orderly_node {kind : Kind} {children : List Tree} : Orderly (.node kind children) :=
  fun _ same => nomatch same

theorem orderly_trait {t : TraitDecl} (outer : t.Outer) : Orderly (.trait t) := by
  intro t' same
  cases same
  exact outer

/-! ## Items -/

section

variable (g : Grammar) (before : List Token) (attributes : List Attribute)

theorem yields_wholeTrait : (wholeTrait g attributes).Yields Orderly :=
  yields_after fun h => yields_bind (yields_traitBody g h) fun _ outer =>
    yields_pure (orderly_trait outer)

theorem yields_traitOrAlias : (traitOrAlias g attributes).Yields Orderly := by
  refine yields_after fun h => yields_after fun ts => yields_ite ?_ (yields_ite ?_ ?_)
  · exact yields_bind (yields_traitBody g h) fun _ outer => yields_pure (orderly_trait outer)
  · exact yields_after fun equals => yields_after fun bounds => yields_after fun clause =>
      yields_after fun semicolon => yields_pure orderly_node
  · exact yields_failExpecting

-- Every other item ends in a node of its own kind, or is kept as written, whatever was read
-- before: so its parser is followed to its ends.

theorem yields_data : (structItem g attributes).Yields Orderly ∧
    (enumItem g attributes).Yields Orderly ∧ (unionItem g attributes).Yields Orderly := by
  unfold structItem enumItem unionItem
  refine ⟨?_, ?_, ?_⟩
  all_goals repeat' first
    | exact yields_pure orderly_node
    | exact yields_failExpecting
    | refine yields_after fun _ => ?_
    | refine yields_ite ?_ ?_

theorem yields_imports : (useItem before attributes).Yields Orderly ∧
    (crateItem attributes).Yields Orderly := by
  unfold useItem crateItem
  refine ⟨?_, ?_⟩
  all_goals repeat' first
    | exact yields_pure orderly_node
    | refine yields_after fun _ => ?_
    | refine yields_ite ?_ ?_
    | split

theorem yields_constDecl (seen preset : Tree) :
    (constDecl g attributes seen preset).Yields fun d => Orderly d.tree := by
  unfold constDecl
  repeat' first
    | exact yields_pure orderly_node
    | refine yields_after fun _ => ?_
    | refine yields_ite ?_ ?_

theorem yields_verbatimSince : (verbatimSince before).Yields Orderly :=
  yields_after fun _ => yields_pure orderly_node

theorem yields_values (seen preset : Tree) :
    (staticItem g before attributes).Yields Orderly ∧
      (constItem g before attributes seen preset).Yields Orderly ∧
      (typeItem g before attributes).Yields Orderly := by
  refine ⟨?_, ?_, ?_⟩
  · unfold staticItem
    repeat' first
      | exact yields_pure orderly_node
      | refine yields_after fun _ => ?_
      | refine yields_ite ?_ ?_
  · exact yields_bind (yields_constDecl g attributes seen preset) fun d orderly =>
      yields_ite (yields_pure orderly) (yields_verbatimSince before)
  · exact yields_after fun d => yields_ite (yields_verbatimSince before) (yields_pure orderly_node)

theorem yields_macros (named : Bool) : (macroItem before).Yields Orderly ∧
    (invocationItem attributes named).Yields Orderly := by
  unfold macroItem invocationItem
  refine ⟨?_, ?_⟩
  all_goals repeat' first
    | exact yields_pure orderly_node
    | exact yields_failExpecting
    | refine yields_after fun _ => ?_
    | refine yields_ite ?_ ?_

theorem yields_bodies (allowDefault : Bool) :
    (functionItem g before attributes allowDefault).Yields Orderly ∧
      (modItem g attributes).Yields Orderly ∧ (foreignItem g attributes).Yields Orderly ∧
      (implItem g before attributes).Yields Orderly := by
  unfold functionItem modItem foreignItem implItem
  refine ⟨?_, ?_, ?_, ?_⟩
  all_goals repeat' first
    | exact yields_pure orderly_node
    | exact yields_failExpecting
    | refine yields_after fun _ => ?_
    | refine yields_ite ?_ ?_

theorem yields_externItem (ts : List Token) : (externItem g attributes ts).Yields Orderly := by
  have foreign := (yields_bodies g [] attributes false).2.2.1
  refine yields_ite (yields_imports [] attributes).2 (yields_ite foreign (yields_ite ?_ ?_))
  · exact yields_ite foreign (yields_after fun _ => yields_failExpecting)
  · exact yields_after fun _ => yields_failExpecting

theorem yields_unsafeItem (ts : List Token) :
    (unsafeItem g before attributes ts).Yields Orderly := by
  obtain ⟨-, module, foreign, impl⟩ := yields_bodies g before attributes false
  exact yields_ite (yields_wholeTrait g attributes) (yields_ite impl (yields_ite foreign
    (yields_ite module (yields_after fun _ => yields_failExpecting))))

/-- Whatever item is read, if it is a trait its inner attributes stand in bodies. -/
theorem yields_itemOf : (itemOf g before attributes).Yields Orderly := by
  obtain ⟨function, module, -, impl⟩ := yields_bodies g before attributes false
  obtain ⟨struct, enum, union⟩ := yields_data g attributes
  have values := yields_values g before attributes
  refine yields_after fun start => yields_after fun seen => yields_after fun ts => ?_
  refine yields_ite (yields_macros before attributes false).1 (yields_after fun _ => ?_)
  refine yields_ite function ?_
  refine yields_ite (yields_externItem g attributes _) ?_
  refine yields_ite (yields_imports before attributes).1 ?_
  refine yields_ite (values .absent .absent).1 ?_
  refine yields_ite (yields_after fun seen => (values seen .absent).2.1) ?_
  refine yields_ite (yields_unsafeItem g before attributes _) ?_
  refine yields_ite module ?_
  refine yields_ite (values .absent .absent).2.2 ?_
  refine yields_ite struct ?_
  refine yields_ite enum ?_
  refine yields_ite union ?_
  refine yields_ite (yields_traitOrAlias g attributes) ?_
  refine yields_ite (yields_wholeTrait g attributes) ?_
  refine yields_ite impl ?_
  refine yields_ite (yields_macros before attributes true).2 ?_
  exact yields_after fun _ => yields_failExpecting

end

end Parser

/-! ## Files -/

theorem yields_fileContent (laidOut : Bool) (tokens : List Token) :
    (Parser.fileContent (.ofTokens laidOut tokens)).Yields fun f =>
      ∀ item ∈ f.items, Parser.Orderly item := by
  have item : (Parser.itemHere (.ofTokens laidOut tokens)).Yields Parser.Orderly :=
    Parser.yields_after fun before => Parser.yields_after fun attributes =>
      Parser.yields_itemOf _ before attributes
  exact Parser.yields_after fun attributes =>
    Parser.yields_bind (Parser.yields_many item) fun items orderly => Parser.yields_pure orderly

/-- In every file that was read, the inner attributes of the methods of a trait at the
top stand in bodies. -/
theorem traits_outer {source : String} {f : SourceFile}
    (parses : SourceFile.ofSource source = .ok f) {t : TraitDecl} (member : .trait t ∈ f.items) :
    t.Outer := by
  unfold SourceFile.ofSource at parses
  dsimp only at parses
  split at parses
  · cases parses
  · obtain ⟨_, read, -⟩ := Parser.onAll_ok_iff.mp parses
    exact yields_fileContent _ _ _ _ _ read _ member t rfl

/-! ## Runtime paths -/

def Tree.IsPlainPath (t : Tree) : Prop := ∃ (p : Parser.PlainPath) (place : Place), t = p.tree place

theorem yields_plainPathTree : Parser.plainPathTree.Yields Tree.IsPlainPath :=
  Parser.yields_after fun place => Parser.yields_after fun p => Parser.yields_pure ⟨p, place, rfl⟩

theorem yields_runtimePath : runtimePath.Yields Tree.IsPlainPath := by
  refine Parser.yields_after fun ts => Parser.yields_ite ?_ yields_plainPathTree
  refine Parser.yields_after fun l => ?_
  split
  · rename_i t read
    obtain ⟨ts, -, parsed, -⟩ := withinLiteral_ok_iff.mp read
    obtain ⟨_, parsed, -⟩ := Parser.onAll_ok_iff.mp parsed
    exact Parser.yields_pure (yields_plainPathTree _ _ _ parsed)
  · exact Parser.yields_throw

/-- The path of the runtime crate, if the arguments name one, is a plain path. -/
def ExtensionArguments.Plain (args : ExtensionArguments) : Prop :=
  ∀ path, args.runtime = some path → path.IsPlainPath

theorem yields_namedExtension {args : ExtensionArguments} (plain : args.Plain) :
    (namedExtension args).Yields ExtensionArguments.Plain := by
  refine Parser.yields_after fun found => ?_
  split
  · refine Parser.yields_after fun _ => Parser.yields_bind yields_runtimePath fun path isPlain => ?_
    have answer : Parser.Yields (return { args with runtime := some path } : Parser _)
        ExtensionArguments.Plain :=
      Parser.yields_pure fun path' same => by
        cases same
        exact isPlain
    exact Parser.yields_ite (Parser.yields_after fun _ => answer) answer
  · refine Parser.yields_after fun key => ?_
    have rest : Parser.Yields (do
        let _ ← Parser.operator "="
        let value ← Parser.string
        if args.name.isSome then Parser.failAt key.place (.rule "duplicate `name` argument")
        return { args with name := some value } : Parser _) ExtensionArguments.Plain :=
      Parser.yields_after fun _ => Parser.yields_after fun value =>
        Parser.yields_ite (Parser.yields_after fun _ => Parser.yields_pure plain)
          (Parser.yields_pure plain)
    exact Parser.yields_ite (Parser.yields_after fun _ => rest) rest

theorem yields_namedExtensions {fuel : Nat} {args : ExtensionArguments} (plain : args.Plain) :
    (namedExtensions fuel args).Yields ExtensionArguments.Plain := by
  induction fuel generalizing args with
  | zero => exact Parser.yields_pure plain
  | succ fuel ih =>
      refine Parser.yields_after fun ts => Parser.yields_ite (Parser.yields_pure plain) ?_
      refine Parser.yields_bind (yields_namedExtension plain) fun args plain => ?_
      refine Parser.yields_after fun ts => Parser.yields_ite (Parser.yields_pure plain) ?_
      exact Parser.yields_after fun _ => ih plain

theorem yields_extensionArguments : extensionArguments.Yields ExtensionArguments.Plain := by
  have none (name : Option StringLiteral) : ExtensionArguments.Plain { name } :=
    fun path same => nomatch same
  refine Parser.yields_after fun ts => Parser.yields_ite ?_ ?_
  · refine Parser.yields_after fun name => Parser.yields_after fun ts => ?_
    exact Parser.yields_ite (Parser.yields_pure (none name)) (Parser.yields_after fun _ =>
      Parser.yields_after fun fuel => yields_namedExtensions (none name))
  · exact Parser.yields_after fun fuel => yields_namedExtensions (none Option.none)

/-- An annotation can only name a plain path. -/
theorem runtime_plain {tokens : List Token} {args : ExtensionArguments}
    (read : ExtensionArguments.ofTokens tokens = .ok args) : args.Plain := by
  obtain ⟨_, parsed, -⟩ := Parser.onAll_ok_iff.mp read
  exact yields_extensionArguments _ _ _ parsed

/-! ## Event ids -/

theorem yields_eventNumber : eventNumber.Yields fun n => fitsInt n.value = true := by
  refine Parser.yields_after fun sign => Parser.yields_after fun n => ?_
  generalize (if sign.isEmpty then n.value else -n.value) = value
  dsimp only
  split
  · rename_i fits
    exact Parser.yields_pure fits
  · exact Parser.yields_throw

/-- The event id, if one was read, has 32 bits. -/
def PartialMessage.Fits (p : PartialMessage) : Prop :=
  ∀ n, p.event = some n → fitsInt n.value = true

section

variable {g : Grammar} {p : PartialMessage}

theorem fits_put {n : EventNumber} (fits : fitsInt n.value = true) :
    PartialMessage.Fits { p with event := some n } := by
  rintro _ ⟨⟩
  exact fits

theorem yields_namedMessage (fits : p.Fits) : (namedMessage g p).Yields PartialMessage.Fits := by
  have unlessGiven {q : PartialMessage} (fits : q.Fits) (given : Bool) (key : Ident) :
      Parser.Yields (do onlyOnce given key; return q) PartialMessage.Fits :=
    Parser.yields_after fun _ => Parser.yields_pure fits
  refine Parser.yields_after fun key => Parser.yields_after fun _ => ?_
  refine Parser.yields_ite ?_ (Parser.yields_ite ?_ (Parser.yields_ite ?_ Parser.yields_throw))
  · exact Parser.yields_bind yields_eventNumber fun n small => unlessGiven (fits_put small) _ key
  · exact Parser.yields_after fun l => unlessGiven (q := { p with level := some l }) fits _ key
  · exact Parser.yields_after fun m => unlessGiven (q := { p with message := some m }) fits _ key

theorem yields_positionalMessage (fits : p.Fits) (index : Nat) :
    (positionalMessage g index p).Yields PartialMessage.Fits := by
  match index with
  | 0 =>
      exact Parser.yields_bind yields_eventNumber fun n small => Parser.yields_pure (fits_put small)
  | 1 => exact Parser.yields_after fun l => Parser.yields_pure fits
  | 2 => exact Parser.yields_after fun m => Parser.yields_pure fits
  | _ + 3 => exact Parser.yields_failHere

theorem yields_partialMessage (fits : p.Fits) (fuel index : Nat) (named : Bool) :
    (partialMessage g fuel index named p).Yields PartialMessage.Fits := by
  induction fuel generalizing p index named with
  | zero => exact Parser.yields_pure fits
  | succ fuel ih =>
      refine Parser.yields_after fun ts => Parser.yields_ite (Parser.yields_pure fits) ?_
      have rest {q : PartialMessage} (fits : q.Fits) (index : Nat) (named : Bool) :
          Parser.Yields (do
            if (← Parser.ahead).isEmpty then return q
            let _ ← Parser.operator ","
            partialMessage g fuel index named q) PartialMessage.Fits :=
        Parser.yields_after fun ts => Parser.yields_ite (Parser.yields_pure fits)
          (Parser.yields_after fun _ => ih fits index named)
      refine Parser.yields_ite ?_ (Parser.yields_ite ?_ ?_)
      · exact Parser.yields_bind (yields_namedMessage fits) fun q fits => rest fits _ _
      · exact Parser.yields_bind Parser.yields_failHere fun q fits => rest fits _ _
      · exact Parser.yields_bind (yields_positionalMessage fits index) fun q fits => rest fits _ _

theorem yields_messageArguments :
    (messageArguments g).Yields fun args => fitsInt args.event.value = true := by
  refine Parser.yields_after fun fuel => ?_
  have empty : PartialMessage.Fits {} := fun n same => nomatch same
  refine Parser.yields_bind (yields_partialMessage empty fuel 0 false) fun p fits => ?_
  have filled : (required p.event "missing event id").Yields fun n => fitsInt n.value = true := by
    cases given : p.event with
    | none => exact Parser.yields_failHere
    | some n => exact Parser.yields_pure (fits n given)
  refine Parser.yields_bind filled fun n small => ?_
  exact Parser.yields_after fun _ => Parser.yields_after fun _ => Parser.yields_pure small

end

/-- An event id that a message declares has 32 bits. -/
theorem event_fits {tokens : List Token} {args : MessageArguments}
    (read : MessageArguments.ofTokens tokens = .ok args) : fitsInt args.event.value = true := by
  obtain ⟨_, parsed, -⟩ := Parser.onAll_ok_iff.mp read
  exact yields_messageArguments _ _ _ parsed

end LogInterface
