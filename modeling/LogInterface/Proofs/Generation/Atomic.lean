/-
# Proofs.Generation.Atomic -- generating from file to file, time after time

`Directory.generate` answers a new directory or an error, so that it cannot show what a failure
leaves behind.  `Files.generate` is the same program step by step, on a directory in which
everything stays that was written before a failure.  The two agree (`apply_generate`): nothing is
written until nothing can fail but the write itself.

In a `history` of requests each step starts from what the steps before it have left, and may read
what they have written.  Every step is `Step.Atomic`, so a name stands in the end for what was
last generated there, or for what it stood for at first (`entry?_runAll`).
-/
import Mathlib
import LogInterface.Proofs.Generation.Directory
import LogInterface.Proofs.Generation.FixedPoint

namespace LogInterface

open LogInterface.Text

set_option autoImplicit false

/-! ## Step by step -/

/-- Work on a directory that can fail.  What was written before a failure stays written. -/
abbrev Files := ExceptT FileError (StateM Directory)

namespace Files

/-- What the work answers, and the directory that it leaves. -/
def apply {α : Type} (work : Files α) (d : Directory) : Except FileError α × Directory :=
  (ExceptT.run work).run d

def readText (path : String) : Files String := do
  match (← get).readText path with
  | .ok text => return text
  | .error cause => throw (.read path cause)

def writeText (path text : String) : Files Unit := do
  match (← get).write path (bytesOf text) with
  | .ok d => set d
  | .error cause => throw (.write path cause)

/-- Reads a file, generates, and writes the outcome to a file. -/
def generate (input output : String) (settings : Settings) : Files Generated := do
  let source ← readText input
  match LogInterface.generate source settings with
  | .error report => throw (.rejected input report (Report.render report source input))
  | .ok generated =>
      writeText output generated.source
      return generated

variable {α β : Type}

theorem apply_bind (work : Files α) (next : α → Files β) (d : Directory) :
    (work >>= next).apply d = match work.apply d with
      | (.ok a, after) => (next a).apply after
      | (.error e, after) => (.error e, after) := by
  simp only [apply, ExceptT.run_bind, StateT.run_bind]
  match StateT.run (ExceptT.run work) d with
  | (.ok a, after) => rfl
  | (.error e, after) => rfl

theorem apply_get (next : Directory → Files α) (d : Directory) :
    (get >>= next).apply d = (next d).apply d := rfl

theorem apply_readText (path : String) (d : Directory) :
    (readText path).apply d = ((d.readText path).mapError (FileError.read path), d) := by
  rw [readText, apply_get]
  cases d.readText path <;> rfl

theorem apply_writeText (path text : String) (d : Directory) :
    (writeText path text).apply d = match d.write path (bytesOf text) with
      | .ok after => (.ok (), after)
      | .error cause => (.error (.write path cause), d) := by
  rw [writeText, apply_get]
  cases d.write path (bytesOf text) <;> rfl

/-- **A failure leaves the directory as it was**, and a success leaves the one that is answered. -/
theorem apply_generate (input output : String) (settings : Settings) (d : Directory) :
    (generate input output settings).apply d = match d.generate input output settings with
      | .ok (generated, after) => (.ok generated, after)
      | .error e => (.error e, d) := by
  rw [generate, apply_bind, apply_readText, Directory.generate]
  cases d.readText input with
  | error cause => rfl
  | ok source =>
      simp only [Except.mapError]
      cases LogInterface.generate source settings with
      | error report => rfl
      | ok generated =>
          simp only [apply_bind, apply_writeText]
          cases d.write output (bytesOf generated.source) <;> rfl

end Files

/-! ## Histories -/

/-- What a call of the generator for files is asked. -/
structure Request where
  input : String
  output : String
  settings : Settings := {}

/-- What a call answers, and the directory that it leaves. -/
def Request.run (r : Request) (d : Directory) : Except FileError Generated × Directory :=
  (Files.generate r.input r.output r.settings).apply d

/-- One call, between two directories. -/
structure Step where
  before : Directory
  request : Request
  answer : Except FileError Generated
  after : Directory

def Request.step (r : Request) (d : Directory) : Step := ⟨d, r, (r.run d).1, (r.run d).2⟩

namespace Directory

/-- The steps of some requests, each on what the ones before it have left. -/
def history (d : Directory) : List Request → List Step
  | [] => []
  | r :: requests => r.step d :: (r.step d).after.history requests

def runAll (d : Directory) (requests : List Request) : Directory :=
  requests.foldl (fun d r => (r.step d).after) d

end Directory

/-! ## One step -/

/-- What a step can be: a failure that changes nothing, or a success that changes one file. -/
inductive Step.Atomic (s : Step) : Prop where
  /-- The input could not be read. -/
  | read {cause : AccessError} :
      s.before.readText s.request.input = .error cause →
      s.answer = .error (.read s.request.input cause) → s.after = s.before → Atomic s
  /-- The input was read and rejected. -/
  | rejected {source : String} {report : Report} :
      s.before.readText s.request.input = .ok source →
      generate source s.request.settings = .error report →
      s.answer = .error (.rejected s.request.input report (report.render source s.request.input)) →
      s.after = s.before → Atomic s
  /-- The outcome could not be written. -/
  | write {source : String} {generated : Generated} {cause : AccessError} :
      s.before.readText s.request.input = .ok source →
      generate source s.request.settings = .ok generated →
      s.before.write s.request.output (bytesOf generated.source) = .error cause →
      s.answer = .error (.write s.request.output cause) → s.after = s.before → Atomic s
  /-- The outcome for the input as it was read was answered, and it is what the output holds. -/
  | success {source : String} {generated : Generated} {name : List String} :
      s.before.readText s.request.input = .ok source →
      generate source s.request.settings = .ok generated → s.answer = .ok generated →
      s.before.resolve s.request.output = .ok ⟨name, false⟩ →
      (∀ other, s.after.entry? other
        = if other = name then some (.file (bytesOf generated.source)) else s.before.entry? other) →
      s.after.readText s.request.output = .ok generated.source → Atomic s

theorem atomic_step (r : Request) (d : Directory) : (r.step d).Atomic := by
  have ran : r.run d = match d.generate r.input r.output r.settings with
      | .ok (generated, after) => (.ok generated, after)
      | .error e => (.error e, d) := Files.apply_generate r.input r.output r.settings d
  rw [Directory.generate] at ran
  match readIn : d.readText r.input with
  | .error cause =>
      rw [readIn] at ran
      exact .read readIn (congrArg Prod.fst ran) (congrArg Prod.snd ran)
  | .ok source =>
      simp only [readIn] at ran
      match made : generate source r.settings with
      | .error report =>
          simp only [made] at ran
          exact .rejected readIn made (congrArg Prod.fst ran) (congrArg Prod.snd ran)
      | .ok generated =>
          simp only [made] at ran
          match wrote : d.write r.output (bytesOf generated.source) with
          | .error cause =>
              simp only [wrote] at ran
              exact .write readIn made wrote (congrArg Prod.fst ran) (congrArg Prod.snd ran)
          | .ok after =>
              simp only [wrote] at ran
              obtain ⟨name, written⟩ := Directory.write_ok_iff.mp wrote
              have left : (r.step d).after = after := congrArg Prod.snd ran
              exact .success readIn made (congrArg Prod.fst ran) written.leads
                (left ▸ written.changed) (left ▸ written.readText)

/-! ## All steps -/

theorem exists_request_of_mem_history {d : Directory} {requests : List Request} {s : Step}
    (member : s ∈ d.history requests) : ∃ d' r, s = Request.step r d' := by
  induction requests generalizing d with
  | nil => cases member
  | cons r requests ih =>
      rcases List.mem_cons.mp member with rfl | later
      · exact ⟨d, r, rfl⟩
      · exact ih later

def Step.put? (s : Step) (name : List String) : Option Directory.Entry :=
  match s.answer, s.before.resolve s.request.output with
  | .ok generated, .ok t =>
      if name = t.name then some (.file (bytesOf generated.source)) else none
  | _, _ => none

theorem Step.Atomic.entry?_after {s : Step} (atomic : s.Atomic) (name : List String) :
    s.after.entry? name = ((s.put? name).or <| s.before.entry? name) := by
  cases atomic with
  | read _ failed same | rejected _ _ failed same | write _ _ _ failed same =>
      rw [Step.put?, failed, same]
      rfl
  | success _ _ answered leads changed _ =>
      rw [Step.put?, answered, leads, changed]
      simp only
      split <;> rfl

/-- **A name stands for what was last put there**, and if nothing was, for what it stood for at
first. -/
theorem entry?_runAll (d : Directory) (requests : List Request) (name : List String) :
    Directory.entry? (d.runAll requests) name
      = (((d.history requests).reverse.findSome? (·.put? name)).or <| d.entry? name) := by
  induction requests generalizing d with
  | nil => rfl
  | cons r requests ih =>
      have last : [r.step d].findSome? (·.put? name) = (r.step d).put? name := by
        rw [List.findSome?_cons]
        cases (r.step d).put? name <;> rfl
      have shown : Directory.entry? ((r.step d).after.runAll requests) name = _ := ih _
      rw [(atomic_step r d).entry?_after] at shown
      rw [Directory.history, List.reverse_cons, List.findSome?_append, Option.or_assoc, last]
      exact shown

/-! ## Invalid interfaces -/

/-- An annotated trait of the file that is no logging interface where it stands: at the top, or
inside an item that is no interface itself. -/
structure SourceFile.HasInvalid (f : SourceFile) (settings : Settings) (item : Tree)
    (t : TraitDecl) : Prop where
  top : item ∈ f.items
  occurs : (Tree.trait t).Occurs item
  annotated : t.isAnnotated = true
  invalid : item = .trait t → ¬t.IsLogging (settings.context false t)
  apart : ¬t.InsideInterface item

theorem generate_of_invalid {f : SourceFile} {settings : Settings} {item : Tree} {t : TraitDecl}
    (isInvalid : f.HasInvalid settings item t) : ∃ report, f.generate settings = .error report := by
  obtain ⟨top, occurs, annotated, invalid, apart⟩ := isInvalid
  cases interface : item.isInterface with
  | false =>
      obtain ⟨report, rejected, -⟩ := reported_of_inside top interface annotated occurs
      exact ⟨report, rejected⟩
  | true =>
      match item, interface with
      | .trait outer, isAnnotated =>
          cases occurs with
          | inPart part below => exact absurd ⟨outer, rfl, isAnnotated, _, part, below⟩ apart
          | here =>
              cases enters_of_top top isAnnotated with
              | accepted found accepted _ =>
                  obtain ⟨-, rfl⟩ := found_iff.mp found
                  exact absurd (expand_ok_iff_isLogging.mp ⟨_, accepted⟩) (invalid rfl)
              | rejected _ _ _ rejected _ => exact ⟨_, rejected⟩

/-- **Generating from file to file is atomic**, at every step of a history: the step is atomic, and
it is rejected and changes nothing if the input has an invalid interface. -/
theorem generation_atomic (d : Directory) (requests : List Request) (s : Step)
    (member : s ∈ d.history requests) :
    s.Atomic ∧ ∀ (source : String) (f : SourceFile) (item : Tree) (t : TraitDecl),
      s.before.readText s.request.input = .ok source → SourceFile.ofSource source = .ok f →
      f.HasInvalid s.request.settings item t →
        ∃ report, s.answer = .error (.rejected s.request.input report
          (report.render source s.request.input)) ∧ s.after = s.before := by
  obtain ⟨d', r, rfl⟩ := exists_request_of_mem_history member
  refine ⟨atomic_step r d', fun source f item t readIn parses isInvalid => ?_⟩
  obtain ⟨report, rejected⟩ := generate_of_invalid isInvalid
  rw [← generate_parsed parses] at rejected
  cases atomic_step r d' with
  | read failed => cases readIn.symm.trans failed
  | rejected readIn' rejected' answer same =>
      cases readIn.symm.trans readIn'
      exact ⟨_, answer, same⟩
  | write readIn' made =>
      cases readIn.symm.trans readIn'
      cases rejected.symm.trans made
  | success readIn' made =>
      cases readIn.symm.trans readIn'
      cases rejected.symm.trans made

namespace Sample

/-- A directory with one file, whose name is `a`. -/
def directory (source : String) : Directory := ⟨[(["a"], .file (bytesOf source))]⟩

theorem resolve_a (d : Directory) : d.resolve "a" = .ok ⟨["a"], false⟩ :=
  d.resolve_plain (by cbv) (by cbv) (by cbv) (by decide) (by decide) (by decide)

theorem resolve_b (d : Directory) : d.resolve "b" = .ok ⟨["b"], false⟩ :=
  d.resolve_plain (by cbv) (by cbv) (by cbv) (by decide) (by decide) (by decide)

theorem directory_readText (source : String) : (directory source).readText "a" = .ok source :=
  Directory.readText_of_file (resolve_a _) rfl

theorem directory_write (source : String) (bytes : List UInt8) :
    (directory source).write "b" bytes = .ok ((directory source).put ["b"] (.file bytes)) := by
  have free : (directory source).IsFree ["b"] := by
    rw [Directory.IsFree, show Directory.entry? (directory source) ["b"] = none from rfl]
    exact (Option.some_ne_none _).symm
  exact Directory.write_ok_iff.mpr ⟨["b"], resolve_b _, free, rfl⟩

/-- Has the file an annotated trait inside an item that is no interface? -/
def nests (f : SourceFile) : Bool :=
  f.items.any fun item => !item.isInterface && !item.annotatedTraits.isEmpty

theorem hasInvalid_of_nests {f : SourceFile} (nests : Sample.nests f = true) (settings : Settings) :
    ∃ item t, f.HasInvalid settings item t := by
  simp only [Sample.nests, List.any_eq_true, Bool.and_eq_true, Bool.not_eq_true'] at nests
  obtain ⟨item, top, other, inside⟩ := nests
  obtain ⟨t, isInside⟩ := List.exists_mem_of_ne_nil _ (List.isEmpty_eq_false_iff.mp inside)
  obtain ⟨occurs, annotated⟩ := mem_annotatedTraits.mp isInside
  refine ⟨item, t, top, occurs, annotated, ?_, ?_⟩
  · rintro rfl
    exact absurd annotated (by simpa [Tree.isInterface] using other)
  · rintro ⟨outer, rfl, isInterface, -⟩
    exact absurd isInterface (by simpa [Tree.isInterface] using other)

theorem file_nests : ∃ f, SourceFile.ofSource file = .ok f ∧ nests f = true :=
  exists_file_of_check file nests String.ofList_append.symm (by decide +kernel)

end Sample

/-- A file that is to be overwritten with what is generated from it, and is rejected. -/
theorem generation_atomic_sample :
    ∃ s ∈ (Sample.directory Sample.file).history [⟨"a", "a", {}⟩], s.Atomic ∧
      ∃ report, s.answer = .error (.rejected "a" report (report.render Sample.file "a")) ∧
        s.after = Sample.directory Sample.file := by
  obtain ⟨f, parses, nests⟩ := Sample.file_nests
  obtain ⟨item, t, isInvalid⟩ := Sample.hasInvalid_of_nests nests {}
  have first : Request.step ⟨"a", "a", {}⟩ (Sample.directory Sample.file)
      ∈ (Sample.directory Sample.file).history [⟨"a", "a", {}⟩] := List.mem_cons_self
  obtain ⟨atomic, rejects⟩ := generation_atomic _ _ _ first
  exact ⟨_, first, atomic,
    rejects _ f item t (Sample.directory_readText _) parses isInvalid⟩

/-- An interface inside another one is invalid, and the outcome is written all the same. -/
theorem inner_interface_written :
    ∃ s ∈ (Sample.directory Sample.inner).history [⟨"a", "b", {}⟩],
      s.before.readText "a" = .ok Sample.inner ∧
      ∃ f, SourceFile.ofSource Sample.inner = .ok f ∧
        (∃ item ∈ f.items, ∃ d : TraitDecl, (Tree.trait d).Occurs item ∧ d.isAnnotated = true ∧
          .trait d ∉ f.items ∧ ¬d.IsLogging (({} : Settings).context true d)) ∧
        ∃ g, s.answer = .ok g ∧ s.before.entry? ["b"] = none ∧
          s.after.entry? ["b"] = some (.file (bytesOf g.source)) := by
  obtain ⟨f, parses, hides⟩ := Sample.inner_hides
  obtain ⟨-, t, d, top, -, left, notTop⟩ := Sample.exists_of_hides hides
  obtain ⟨occurs, annotated⟩ := mem_annotatedTraits.mp (annotatedTraits_of_stripped left)
  have readIn := Sample.directory_readText Sample.inner
  obtain ⟨g, made⟩ := Sample.inner_generates
  have absent : Directory.entry? (Sample.directory Sample.inner) ["b"] = none := rfl
  refine ⟨_, List.mem_cons_self, readIn, f, parses,
    ⟨_, top, d, occurs, annotated, notTop, fun logging => nomatch logging.unnested⟩, g, ?_⟩
  cases atomic_step ⟨"a", "b", {}⟩ (Sample.directory Sample.inner) with
  | read failed => cases readIn.symm.trans failed
  | rejected readIn' rejected =>
      cases readIn.symm.trans readIn'
      cases made.symm.trans rejected
  | write _ _ failed =>
      cases (Sample.directory_write _ _).symm.trans failed
  | success readIn' made' answer leads changed =>
      cases readIn.symm.trans readIn'
      cases made.symm.trans made'
      cases (Sample.resolve_b _).symm.trans leads
      exact ⟨answer, absent, by rw [changed, if_pos rfl]⟩

end LogInterface
