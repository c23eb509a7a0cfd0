/-
# Proofs.Interface.Spelling -- one identifier, spelled in two ways

A raw identifier denotes the same name as the plain one (`Ident.name`).  Two traits that
differ only in how their names are spelled (`TraitDecl.Respelled`), under annotations
that differ only so (`Context.Respelled`), should be logging interfaces together.

Almost every rule looks at names: the placeholders, the wrapping method, and all that is
generated.  Two rules look at spellings: a generated type must not be spelled as the trait
is, and the spelling of a parameter must not start with two underscores.  So a raw
spelling lets through what the plain one does not (`raw_trait_slips`), and that is all:
by `accepts_respelled` the plain spelling is accepted exactly if another one is and no
name is hidden from these two rules (`TraitDecl.IsClear`).
-/
import LogInterface.Proofs.Interface.Acceptance

namespace LogInterface

set_option autoImplicit false

/-! ## Spellings -/

namespace Ident

def raw (i : Ident) : Ident := ⟨"r#" ++ i.name, i.place⟩

/-- A spelling without the mark of a raw identifier. -/
def IsPlain (i : Ident) : Prop := i.text = i.name

/-- The text is the name, or it is the name behind the mark. -/
theorem text_cases (i : Ident) : i.IsPlain ∨ i.text.toList = 'r' :: '#' :: i.name.toList := by
  unfold Ident.IsPlain Ident.name
  split
  · rename_i rest spelled
    exact .inr (by rw [spelled, String.toList_ofList])
  · exact .inl rfl

@[simp]
theorem name_raw (i : Ident) : i.raw.name = i.name := by
  have spelled : i.raw.text.toList = 'r' :: '#' :: i.name.toList := String.toList_append
  simp [Ident.name, spelled]

/-- The name depends on nothing but the text. -/
theorem name_congr {i j : Ident} (same : i.text = j.text) : i.name = j.name := by
  rw [Ident.name, Ident.name, same]

theorem IsPlain.unmarked {i : Ident} (plain : i.IsPlain) (rest : List Char) :
    i.text.toList ≠ 'r' :: '#' :: rest := by
  intro marked
  have shorter : i.name.toList = rest := by
    rw [Ident.name, marked]
    exact String.toList_ofList
  rw [← plain, marked] at shorter
  have lengths := congrArg List.length shorter
  simp only [List.length_cons] at lengths
  omega

/-- A name that is reserved in some spelling is reserved. -/
theorem reserved_name {i : Ident} (reserved : "__".toList <+: i.text.toList) :
    "__".toList <+: i.name.toList := by
  rcases i.text_cases with plain | marked
  · rwa [← plain]
  · rw [marked] at reserved
    exact absurd (List.cons_prefix_cons.mp reserved).1 (by decide)

end Ident

/-- The extension trait of a plain companion is spelled plainly. -/
theorem Naming.extensionTrait_isPlain {companion : Ident} (plain : companion.IsPlain) :
    (Naming.extensionTrait companion).IsPlain := by
  refine (Ident.text_cases _).resolve_right fun marked => ?_
  change (companion.name ++ "Ext").toList = _ at marked
  rw [← plain, String.toList_append] at marked
  -- The ending has no part of the mark, so the companion would have all of it.
  match spelled : companion.text.toList with
  | [] | [_] => simp [spelled] at marked
  | first :: second :: rest =>
      rw [spelled] at marked
      injection marked with isR marked
      injection marked with isHash _
      exact plain.unmarked rest (by rw [spelled, isR, isHash])

/-! ## Traits -/

/-- One input with its name spelled in two ways. -/
inductive Input.Respelled : Input → Input → Prop where
  | same (i : Input) : Respelled i i
  | parameter {attributes : List Attribute} {i i' : Ident} {type : Tree} :
      i.name = i'.name →
        Respelled (.typed attributes (.name i) type) (.typed attributes (.name i') type)

/-- One method with its name and its parameters spelled in two ways. -/
inductive Method.Respelled (m : Method) : Method → Prop where
  | intro {name : Ident} {inputs : List Input} :
      m.signature.name.name = name.name →
      List.Forall₂ Input.Respelled m.signature.inputs inputs →
        Respelled m { m with signature := { m.signature with name, inputs } }

/-- One item of a trait with the names of a method spelled in two ways. -/
inductive TraitItem.Respelled : TraitItem → TraitItem → Prop where
  | method {m m' : Method} : m.Respelled m' → Respelled (.method m) (.method m')
  | other (t : Tree) : Respelled (.other t) (.other t)

/-- One trait with its name and those of its methods spelled in two ways. -/
inductive TraitDecl.Respelled (t : TraitDecl) : TraitDecl → Prop where
  | intro {name : Ident} {items : List TraitItem} :
      t.name.name = name.name → List.Forall₂ TraitItem.Respelled t.items items →
        Respelled t { t with name, items }

/-- The annotation is read, and asks for a companion with this identifier. -/
structure Context.Asks (cx : Context) (args : ExtensionArguments) (i : Ident) : Prop where
  read : ExtensionArguments.ofTokens cx.arguments = .ok args
  named : ∃ l, args.name = some l ∧ (withinLiteral l fun _ => Parser.name) = .ok i

/-- One annotation with the name that it asks for spelled in two ways. -/
structure Context.Respelled (cx cx' : Context) : Prop where
  nested : cx.nested = cx'.nested
  triggers : cx.triggers = cx'.triggers
  runtime : cx.runtime = cx'.runtime
  arguments : cx.arguments = cx'.arguments ∨ ∃ args args' i i', cx.Asks args i ∧
    cx'.Asks args' i' ∧ i.name = i'.name ∧ args.runtime = args'.runtime

theorem Input.Respelled.symm {i i' : Input} (same : i.Respelled i') : i'.Respelled i := by
  cases same with
  | same i => exact .same i
  | parameter names => exact .parameter names.symm

theorem Method.Respelled.symm {m m' : Method} (same : m.Respelled m') : m'.Respelled m := by
  cases same with
  | @intro name inputs names each =>
      have back := @Method.Respelled.intro
        { m with signature := { m.signature with name, inputs } } m.signature.name
        m.signature.inputs names.symm (each.flip.imp fun _ _ => Input.Respelled.symm)
      obtain ⟨_, ⟨⟩, _⟩ := m
      exact back

theorem TraitItem.Respelled.symm {i i' : TraitItem} (same : i.Respelled i') :
    i'.Respelled i := by
  cases same with
  | method same => exact .method same.symm
  | other t => exact .other t

theorem TraitDecl.Respelled.symm {t t' : TraitDecl} (same : t.Respelled t') :
    t'.Respelled t := by
  cases same with
  | @intro name items names each =>
      have back := @TraitDecl.Respelled.intro { t with name, items } t.name t.items names.symm
        (each.flip.imp fun _ _ => TraitItem.Respelled.symm)
      cases t
      exact back

theorem Context.Respelled.symm {cx cx' : Context} (same : cx.Respelled cx') :
    cx'.Respelled cx where
  nested := same.nested.symm
  triggers := same.triggers.symm
  runtime := same.runtime.symm
  arguments := by
    rcases same.arguments with equal | ⟨args, args', i, i', asks, asks', names, runtime⟩
    · exact .inl equal.symm
    · exact .inr ⟨args', args, i', i, asks', asks, names.symm, runtime.symm⟩

/-! ## Spelling a trait anew -/

/-- The input with its name spelled anew. -/
def Input.spelled (spell : Ident → Ident) : Input → Input
  | .typed attributes (.name i) type => .typed attributes (.name (spell i)) type
  | i => i

/-- The method with its name and its parameters spelled anew. -/
def Method.spelled (spell : Ident → Ident) (m : Method) : Method :=
  { m with
    signature :=
      { m.signature with
        name := spell m.signature.name
        inputs := m.signature.inputs.map (Input.spelled spell) } }

/-- The item with the names of a method spelled anew. -/
def TraitItem.spelled (spell : Ident → Ident) : TraitItem → TraitItem
  | .method m => .method (m.spelled spell)
  | .other t => .other t

/-- The trait with its name and those of its methods spelled anew. -/
def TraitDecl.spelled (spell : Ident → Ident) (t : TraitDecl) : TraitDecl :=
  { t with name := spell t.name, items := t.items.map (TraitItem.spelled spell) }

theorem respelled_spelled {spell : Ident → Ident} (keeps : ∀ i, i.name = (spell i).name)
    (t : TraitDecl) : t.Respelled (t.spelled spell) := by
  have inputs (i : Input) : i.Respelled (i.spelled spell) :=
    match i with
    | .receiver _ | .typed _ (.other _) _ => .same _
    | .typed _ (.name i) _ => .parameter (keeps i)
  have items (i : TraitItem) : i.Respelled (i.spelled spell) :=
    match i with
    | .other t => .other t
    | .method m =>
        .method (.intro (keeps _)
          (List.forall₂_map_right_iff.mpr (List.forall₂_same.mpr fun i _ => inputs i)))
  exact .intro (keeps _) (List.forall₂_map_right_iff.mpr (List.forall₂_same.mpr fun i _ => items i))

/-! ## What the rules read -/

theorem Context.Respelled.names {cx cx' : Context} (same : cx.Respelled cx')
    {interface interface' companion : Ident} (names : interface.name = interface'.name)
    (named : cx.Names interface companion) :
    ∃ companion', cx'.Names interface' companion' ∧ companion.name = companion'.name := by
  rcases same.arguments with equal | ⟨args, args', i, i', asks, asks', iNames, -⟩
  · cases named with
    | asked read asks parses => exact ⟨companion, .asked (equal ▸ read) asks parses, rfl⟩
    | derived read silent =>
        refine ⟨_, .derived (equal ▸ read) silent, Ident.name_congr ?_⟩
        exact congrArg Naming.companionText names
  · obtain ⟨l, isNamed, parses⟩ := asks.named
    obtain ⟨l', isNamed', parses'⟩ := asks'.named
    refine ⟨i', .asked asks'.read isNamed' parses', iNames ▸ ?_⟩
    cases named with
    | asked read asked parsed =>
        cases asks.read.symm.trans read
        cases isNamed.symm.trans asked
        cases parses.symm.trans parsed
        rfl
    | derived read silent =>
        cases asks.read.symm.trans read
        cases isNamed.symm.trans silent

theorem idents_respelled {inputs inputs' : List Input}
    (same : List.Forall₂ Input.Respelled inputs inputs') :
    (inputs.filterMap Input.ident?).map Ident.name
      = (inputs'.filterMap Input.ident?).map Ident.name := by
  induction same with
  | nil => rfl
  | @cons i i' _ _ first _ ih =>
      cases first with
      | same => cases named : i.ident? <;> simp [named, ih]
      | parameter names => simp [Input.ident?, names, ih]

theorem methods_respelled {items items' : List TraitItem}
    (same : List.Forall₂ TraitItem.Respelled items items') :
    List.Forall₂ Method.Respelled (items.filterMap TraitItem.method?)
      (items'.filterMap TraitItem.method?) := by
  induction same with
  | nil => exact .nil
  | cons first _ ih =>
      cases first with
      | method method => exact .cons method ih
      | other t => exact ih

theorem names_unique {cx : Context} {interface i j : Ident} (one : cx.Names interface i)
    (other : cx.Names interface j) : i = j :=
  congrArg Prod.fst ((names_iff.mp one).2.symm.trans (names_iff.mp other).2)

theorem mem_idents {s : Signature} {i : Ident} :
    i ∈ s.idents ↔ ∃ attributes type, .typed attributes (.name i) type ∈ s.inputs := by
  rw [Signature.idents, List.mem_filterMap]
  constructor
  · rintro ⟨⟨⟩ | ⟨attributes, ⟨⟩ | ⟨⟩, type⟩, isInput, ⟨⟩⟩
    exact ⟨attributes, type, isInput⟩
  · rintro ⟨attributes, type, isInput⟩
    exact ⟨_, isInput, rfl⟩

/-- No parameter has a name that is reserved, in whatever spelling. -/
def Signature.Unreserved (s : Signature) : Prop :=
  ∀ i ∈ s.idents, ¬"__".toList <+: i.name.toList

theorem Method.Respelled.signature {m m' : Method} (same : m.Respelled m')
    (unreserved : m.signature.Unreserved) (logging : m.signature.IsLogging) :
    m'.signature.IsLogging := by
  obtain ⟨name, inputs⟩ := same
  refine ⟨logging.lifetimes, logging.clauseless, logging.silent, ?_, logging.unqualified,
    logging.fixed, ?_⟩
  · obtain ⟨r, rest, spelled, shared⟩ := logging.receiver
    rw [spelled] at inputs
    cases inputs with
    | cons first rest => cases first with | same => exact ⟨r, _, rfl, shared⟩
  · intro attributes pattern type member
    obtain ⟨input, isInput, respelled⟩ := exists_of_forall₂ inputs _ member
    cases respelled with
    | same => exact logging.parameters _ _ _ isInput
    | @parameter _ i i' _ names =>
        refine ⟨⟨i', rfl, fun reserved => ?_⟩, (logging.parameters _ _ _ isInput).plain⟩
        have isIdent : i ∈ m.signature.idents := mem_idents.mpr ⟨_, _, isInput⟩
        exact unreserved i isIdent (names ▸ Ident.reserved_name reserved)

theorem Method.Respelled.isLogging {m m' : Method} (same : m.Respelled m')
    (unreserved : m.signature.Unreserved) {into : Ident} {args : MessageArguments}
    (logging : m.IsLogging into args) : m'.IsLogging into args := by
  have signature := same.signature unreserved logging.signature
  obtain ⟨name, inputs⟩ := same
  refine ⟨logging.message, logging.closed, fun hole isHole => ?_, name ▸ logging.distinct,
    signature, logging.bodyless⟩
  have bound : hole ∈ m.signature.idents.map Ident.name :=
    List.mem_map.mpr (logging.bound hole isHole)
  rw [Signature.idents, idents_respelled inputs] at bound
  exact List.mem_map.mp bound

theorem Method.Respelled.unreserved {m m' : Method} (same : m.Respelled m')
    (unreserved : m.signature.Unreserved) : m'.signature.Unreserved := by
  obtain ⟨-, inputs⟩ := same
  refine (List.forall_mem_map (f := Ident.name)
    (P := fun name => ¬"__".toList <+: name.toList)).mp ?_
  rw [Signature.idents, ← idents_respelled inputs]
  exact List.forall_mem_map.mpr unreserved

theorem forall_isLogging_respelled {ms ms' : List Method} {into : Ident}
    {arguments : List MessageArguments} (same : List.Forall₂ Method.Respelled ms ms')
    (unreserved : ∀ m ∈ ms, m.signature.Unreserved)
    (each : List.Forall₂ (Method.IsLogging · into ·) ms arguments) :
    List.Forall₂ (Method.IsLogging · into ·) ms' arguments := by
  induction same generalizing arguments with
  | nil => exact each
  | cons first _ ih =>
      obtain ⟨firstFree, restFree⟩ := List.forall_mem_cons.mp unreserved
      cases each with
      | cons logging each => exact .cons (first.isLogging firstFree logging) (ih restFree each)

/-! ## Acceptance -/

/-- No name is hidden from a rule that looks at spellings. -/
structure TraitDecl.IsClear (t : TraitDecl) (cx : Context) : Prop where
  /-- The generated types have other names than the trait. -/
  types : ∀ companion, cx.Names t.name companion →
    companion.name ≠ t.name.name ∧ (Naming.extensionTrait companion).name ≠ t.name.name
  parameters : ∀ m ∈ t.methods, m.signature.Unreserved

/-- The names that these rules look at are spelled plainly. -/
structure TraitDecl.IsPlain (t : TraitDecl) (cx : Context) : Prop where
  name : t.name.IsPlain
  companion : ∀ companion, cx.Names t.name companion → companion.IsPlain
  parameters : ∀ m ∈ t.methods, ∀ i ∈ m.signature.idents, i.IsPlain

theorem extensionTrait_congr {companion companion' : Ident}
    (names : companion.name = companion'.name) :
    (Naming.extensionTrait companion).text = (Naming.extensionTrait companion').text :=
  congrArg (· ++ "Ext") names

namespace TraitDecl.Respelled

variable {t t' : TraitDecl} {cx cx' : Context}

theorem isClear (same : t.Respelled t') (alike : cx.Respelled cx') (clear : t.IsClear cx) :
    t'.IsClear cx' := by
  obtain @⟨name, items, names, each⟩ := same
  constructor
  case types =>
    intro companion' named'
    obtain ⟨companion, named, companionNames⟩ := alike.symm.names names.symm named'
    obtain ⟨other, otherExt⟩ := clear.types companion named
    rw [companionNames, ← names]
    exact ⟨other, Ident.name_congr (extensionTrait_congr companionNames) ▸ otherExt⟩
  case parameters =>
    intro m' member
    obtain ⟨m, isMethod, respelled⟩ := exists_of_forall₂ (methods_respelled each) m' member
    exact respelled.unreserved (clear.parameters m isMethod)

theorem isLogging (same : t.Respelled t') (alike : cx.Respelled cx') (clear : t.IsClear cx)
    (logging : t.IsLogging cx) : t'.IsLogging cx' := by
  obtain @⟨name, items, names, each⟩ := same
  obtain ⟨companion, named, -, -, arguments, methods, ids⟩ := logging.companion
  obtain ⟨companion', named', companionNames⟩ := alike.names names named
  obtain ⟨other, otherExt⟩ := clear.types companion named
  have sameExt := extensionTrait_congr companionNames
  have sameInto : Naming.intoCompanion companion = Naming.intoCompanion companion' := by
    rw [Naming.intoCompanion, companionNames, Naming.intoCompanion]
  refine ⟨logging.ungeneric, logging.clauseless, alike.nested ▸ logging.unnested,
    alike.triggers ▸ logging.single, logging.root, logging.unqualified, ?native, companion',
    named', ?companion, ?extension, arguments, ?methods, ids⟩
  case native =>
    intro i' member
    obtain ⟨i, isItem, respelled⟩ := exists_of_forall₂ each i' member
    obtain ⟨m, rfl⟩ := logging.native i isItem
    cases respelled with
    | @method _ m' => exact ⟨m', rfl⟩
  case companion =>
    exact fun equal => other (companionNames.trans ((Ident.name_congr equal).trans names.symm))
  case extension =>
    exact fun equal => otherExt ((Ident.name_congr (sameExt.trans equal)).trans names.symm)
  case methods =>
    rw [← sameInto]
    exact forall_isLogging_respelled (methods_respelled each) clear.parameters methods

end TraitDecl.Respelled

/-- In a plain spelling nothing is hidden. -/
theorem isClear_of_isPlain {t : TraitDecl} {cx : Context} (plain : t.IsPlain cx)
    (logging : t.IsLogging cx) : t.IsClear cx := by
  obtain ⟨companion, named, other, otherExt, arguments, methods, -⟩ := logging.companion
  constructor
  case types =>
    intro companion' named'
    obtain rfl := names_unique named named'
    have companionPlain := plain.companion companion named
    rw [← companionPlain, ← plain.name, ← Naming.extensionTrait_isPlain companionPlain]
    exact ⟨other, otherExt⟩
  case parameters =>
    intro m isMethod i isIdent reserved
    obtain ⟨args, -, method⟩ := exists_of_forall₂ methods.flip m isMethod
    obtain ⟨attributes, type, isInput⟩ := mem_idents.mp isIdent
    obtain ⟨j, spelled, free⟩ := (method.signature.parameters _ _ _ isInput).named
    cases spelled
    rw [← plain.parameters m isMethod i isIdent] at reserved
    exact free reserved

/-- **A trait without hidden names is accepted in every spelling or in none**, and a plain
spelling is accepted exactly if nothing is hidden and another spelling is accepted. -/
theorem accepts_respelled {t t' : TraitDecl} {cx cx' : Context} (same : t.Respelled t')
    (alike : cx.Respelled cx') :
    (t.IsClear cx → ((∃ e, expand t cx = .ok e) ↔ ∃ e, expand t' cx' = .ok e)) ∧
      (t.IsPlain cx →
        ((∃ e, expand t cx = .ok e) ↔ t.IsClear cx ∧ ∃ e, expand t' cx' = .ok e)) := by
  rw [expand_ok_iff_isLogging, expand_ok_iff_isLogging]
  have clearly (clear : t.IsClear cx) : t.IsLogging cx ↔ t'.IsLogging cx' :=
    ⟨same.isLogging alike clear, same.symm.isLogging alike.symm (same.isClear alike clear)⟩
  refine ⟨clearly, fun plain => ⟨fun logging => ?_, fun ⟨clear, logging⟩ => ?_⟩⟩
  · have clear := isClear_of_isPlain plain logging
    exact ⟨clear, (clearly clear).mp logging⟩
  · exact (clearly clear).mpr logging

/-! ## A small interface, spelled in two ways -/

/-- What an annotation asks for can be computed. -/
theorem exists_asks {cx : Context} {name : String}
    (computed : ((ExtensionArguments.ofTokens cx.arguments).toOption.bind fun args =>
      args.name.bind fun l => (withinLiteral l fun _ => Parser.name).toOption.map fun i =>
        (i.name, args.runtime.isNone)) = some (name, true)) :
    ∃ args i, cx.Asks args i ∧ i.name = name ∧ args.runtime = none := by
  obtain ⟨args, read, computed⟩ := Option.bind_eq_some_iff.mp computed
  obtain ⟨l, named, computed⟩ := Option.bind_eq_some_iff.mp computed
  obtain ⟨i, parses, computed⟩ := Option.map_eq_some_iff.mp computed
  obtain ⟨isName, silent⟩ := Prod.ext_iff.mp computed
  exact ⟨args, i, ⟨ok_of_toOption read, l, named, ok_of_toOption parses⟩,
    isName, Option.isNone_iff_eq_none.mp silent⟩

namespace Sample

def asking (name : String) : Context := { context with arguments := Token.stringLiteral name }

theorem asks_server :
    ∃ args i, (asking "Server").Asks args i ∧ i.name = "Server" ∧ args.runtime = none :=
  exists_asks (by decide +kernel)

theorem asking_respelled : (asking "Server").Respelled (asking "r#Server") where
  nested := rfl
  triggers := rfl
  runtime := rfl
  arguments := by
    obtain ⟨args, i, asks, named, silent⟩ := asks_server
    obtain ⟨args', i', asks', named', silent'⟩ :=
      @exists_asks (asking "r#Server") "Server" (by decide +kernel)
    exact .inr ⟨args, args', i, i', asks, asks', named.trans named'.symm, silent.trans silent'.symm⟩

theorem isClear : interface.IsClear (asking "Server") where
  types companion named := by
    obtain ⟨args, i, ⟨read, l, asked, parses⟩, server, -⟩ := asks_server
    obtain rfl := names_unique (.asked read asked parses) named
    have ext : (Naming.extensionTrait i).name = (⟨"ServerExt", .nowhere⟩ : Ident).name :=
      Ident.name_congr (congrArg (· ++ "Ext") server)
    rw [server, ext]
    decide
  parameters := by
    have unreserved : ∀ m ∈ interface.methods, ∀ i ∈ m.signature.idents,
        ¬"__".toList <+: i.name.toList := by decide
    exact unreserved

/-- A trait without methods. -/
def app : TraitDecl := { interface with name := ⟨"App", .nowhere⟩, items := [] }

end Sample

theorem accepts_respelled_sample :
    Sample.interface.Respelled (Sample.interface.spelled Ident.raw) ∧
      (Sample.asking "Server").Respelled (Sample.asking "r#Server") ∧
      Sample.interface.IsClear (Sample.asking "Server") ∧
      ∃ e, expand (Sample.interface.spelled Ident.raw) (Sample.asking "r#Server") = .ok e := by
  have same := respelled_spelled (fun i => i.name_raw.symm) Sample.interface
  refine ⟨same, Sample.asking_respelled, Sample.isClear, ?_⟩
  have accepted : ∃ e, expand Sample.interface (Sample.asking "Server") = .ok e :=
    exists_ok_of_isOk (by decide +kernel)
  exact ((accepts_respelled same Sample.asking_respelled).1 Sample.isClear).mp accepted

/-- Asked for a companion `App`, a trait `App` is rejected and the same trait `r#App` is not. -/
theorem raw_trait_slips :
    Sample.app.Respelled (Sample.app.spelled Ident.raw) ∧
      (¬∃ e, expand Sample.app (Sample.asking "App") = .ok e) ∧
      ∃ e, expand (Sample.app.spelled Ident.raw) (Sample.asking "App") = .ok e := by
  refine ⟨respelled_spelled (fun i => i.name_raw.symm) _, ?_, exists_ok_of_isOk (by decide +kernel)⟩
  rintro ⟨e, accepted⟩
  have rejected : (expand Sample.app (Sample.asking "App")).isOk = false := by decide +kernel
  rw [accepted] at rejected
  cases rejected

end LogInterface
