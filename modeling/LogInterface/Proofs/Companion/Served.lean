/-
# Proofs.Companion.Served -- interfaces that can be called

A `Served` interface is a trait together with what it expands to.  It carries the proof of its
expansion, so a call of one of its methods always ends at the logger (`Served.Call.logs`): there
is no call that is not answered.

The interfaces of the test suite are `Served`.  Their sources are parsed and expanded here, from
their characters, by the definitions themselves (`tested_serve`).
-/
import LogInterface.Generation.Catalogue
import LogInterface.Proofs.Companion.Record
import LogInterface.Proofs.Generation.Contribution

namespace LogInterface

set_option autoImplicit false

/-! ## Calls -/

/-- A trait and what it expands to.  In each of its methods, no two parameters have one name. -/
structure Served where
  declaration : TraitDecl
  context : Context
  expansion : Expansion
  accepted : expand declaration context = .ok expansion
  distinct : ∀ m ∈ declaration.methods, m.signature.Distinct

/-- A call of a method: on the logger or on the wrapper, with an argument for each parameter. -/
structure Served.Call where
  interface : Served
  form : Companion.CallForm
  name : Ident
  method : Method
  declared : interface.declaration.method? name = some method
  arguments : List Argument
  full : arguments.length = method.signature.patterns.length

namespace Served.Call

def on? {σ : Type} (k : Call) (l : Logger σ) (state : σ) : Option (Logged σ) :=
  k.interface.expansion.companion.call? k.form k.name l state k.arguments

/-- There are as many arguments as parameters. -/
theorem length_idents (k : Call) : k.arguments.length = k.method.signature.idents.length := by
  obtain ⟨_, _, _, -, logging, -, -⟩ := call_logs k.interface.accepted k.declared
  exact k.full.trans (patterns_length logging.signature)

/-- **A call logs what it was called with**: the logger is given one record that tells of the
call, if it wants the level. -/
theorem logs (k : Call) :
    ∃ args segments, k.method.Carries args segments ∧ ∃ r : Record,
      r.Tells k.method args k.arguments ∧
        ∀ {σ : Type} (l : Logger σ) (state : σ), k.on? l state = some (l.logIf state r).2 := by
  obtain ⟨into, args, segments, carries, logging, -, call⟩ :=
    call_logs k.interface.accepted k.declared
  have distinct := k.interface.distinct _ (TraitDecl.mem_of_method? k.declared).1
  exact ⟨args, segments, carries, _, record_tells carries logging distinct k.length_idents,
    fun l state => call k.form l state k.arguments k.full⟩

end Served.Call

/-! ## Sources -/

/-- The source declares an interface that can be called, and each of its methods by its name. -/
def Serves (source : String) : Prop :=
  ∃ (f : SourceFile) (s : Served), SourceFile.ofSource source = .ok f ∧
    f.firstTrait? = some s.declaration ∧
    s.context = Settings.context {} false s.declaration ∧
    ∀ m ∈ s.declaration.methods, s.declaration.method? m.signature.name = some m

/-- Is the first trait of the file accepted, and are its names apart? -/
def SourceFile.serves (f : SourceFile) : Bool :=
  match f.firstTrait? with
  | some t =>
      (expand t (Settings.context {} false t)).isOk
        && decide (t.methods.map (·.signature.name.name)).Nodup
        && t.methods.all fun m => decide m.signature.Distinct
  | none => false

theorem serves_of_check (source : String) {cs : List Char} (spelled : source = String.ofList cs)
    (passes : (SourceFile.ofChars cs).toOption.any SourceFile.serves = true) :
    Serves source := by
  obtain ⟨f, parses, serves⟩ := exists_file_of_check source SourceFile.serves spelled passes
  rw [SourceFile.serves] at serves
  match first : f.firstTrait?, serves with
  | some t, serves =>
      simp only [Bool.and_eq_true, decide_eq_true_eq, List.all_eq_true] at serves
      obtain ⟨⟨isOk, named⟩, distinct⟩ := serves
      obtain ⟨e, accepted⟩ := exists_ok_of_isOk isOk
      exact ⟨f, ⟨t, _, e, accepted, distinct⟩, parses, first, rfl,
        fun m member => TraitDecl.method?_of_mem named member⟩

/-- What a storage reports, to its own crate. -/
def storageSource : String :=
  "#[logger_extensions(name = \"StorageLog\")]\npub(crate) trait IStorage \x7b
    #[logger_message(10, Information, \"Wrote \x7bbytes\x7d bytes to \x7bpath\x7d\")]
    fn wrote<'a>(&self, bytes: usize, path: &'a Path);

    #[logger_message(11, Debug, \"Value of \x7btype\x7d\")]
    fn typed(&self, r#type: &str);
\x7d"

/-- The interfaces that the test suite calls. -/
def testedSources : List String :=
  [clientSource, serviceSource, storageSource, reexportedSource, aliasedSource, relativeSource]

set_option maxRecDepth 100000 in
/-- **The interfaces of the test suite can be called.** -/
theorem tested_serve : ∀ source ∈ testedSources, Serves source := by
  rw [testedSources]
  simp only [List.forall_mem_cons]
  refine ⟨?client, ?service, ?storage, ?reexported, ?aliased, ?relative,
    fun _ member => absurd member List.not_mem_nil⟩
  all_goals exact serves_of_check _ rfl (by decide +kernel)

end LogInterface
