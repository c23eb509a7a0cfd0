/-
# Proofs.Generation.Directory -- reading and writing files

What stands under a name is what was last put there (`entry?_put`), and a file is put only where
no folder is.  So no path that led anywhere before leads elsewhere afterwards (`resolve_put`):
all the folders that it goes through are still there.  From this follow the two laws of a write
that succeeds: its path reads what was written (`Directory.Written.readText`), and every other
file is as it was (`Directory.Written.changed`).
-/
import Mathlib.Data.List.Basic
import LogInterface.Generation.Directory
import LogInterface.Proofs.Text.Utf8

namespace LogInterface

open LogInterface.Text

set_option autoImplicit false

namespace Directory

variable {d : Directory} {name : List String} {bytes : List UInt8} {path : String}

/-! ## Putting a file -/

/-- No folder stands under the name, so that a file can. -/
def IsFree (d : Directory) (name : List String) : Prop := d.entry? name ≠ some .folder

theorem IsFree.inside (free : d.IsFree name) : (isAbove name || name == root) = false := by
  rw [IsFree, entry?] at free
  split at free
  · exact absurd rfl free
  · rename_i inside
    exact Bool.not_eq_true _ ▸ inside

/-- **What stands under a name is what was last put there.** -/
theorem entry?_put (free : d.IsFree name) (e : Entry) (other : List String) :
    entry? (d.put name e) other = if other = name then some e else d.entry? other := by
  by_cases same : other = name
  · subst same
    rw [if_pos rfl, entry?, free.inside]
    simp [put]
  · rw [if_neg same, entry?, entry?]
    by_cases above : (isAbove other || other == root) = true
    · rw [if_pos above, if_pos above]
    · rw [if_neg above, if_neg above, put, List.find?_cons_of_neg (by simpa using Ne.symm same),
        List.find?_filter]
      refine congrArg (Option.map Prod.snd) (congrArg (List.find? · _) (funext fun entry => ?_))
      by_cases found : entry.1 = other
      · simp [found, same]
      · simp [found]

/-- Every folder stays. -/
theorem entry?_put_folder (free : d.IsFree name) {other : List String}
    (folder : d.entry? other = some .folder) :
    entry? (d.put name (.file bytes)) other = some .folder := by
  rw [entry?_put free, if_neg, folder]
  rintro rfl
  exact free folder

/-- A walk goes through folders, and these stay. -/
theorem walk_put (free : d.IsFree name) {start target : List String} {parts : List String}
    (leads : d.walk start parts = .ok target) :
    (d.put name (.file bytes)).walk start parts = .ok target := by
  induction parts generalizing start with
  | nil => exact leads
  | cons part parts ih =>
      rw [walk] at leads ⊢
      split at leads
      · cases leads
      · cases leads
      · rename_i folder
        rw [entry?_put_folder free folder]
        split at leads
        · cases leads
        · rename_i short
          simp only [if_neg short]
          exact ih leads

/-- **A path that leads somewhere still leads there** when a file was put somewhere. -/
theorem resolve_put (free : d.IsFree name) {t : Target} (leads : d.resolve path = .ok t) :
    (d.put name (.file bytes)).resolve path = .ok t := by
  rw [resolve] at leads ⊢
  split at leads
  · cases leads
  · rename_i named
    rw [if_neg named]
    split at leads
    · cases leads
    · rename_i filled
      rw [if_neg filled]
      split at leads
      · cases leads
      · rename_i short
        rw [if_neg short]
        match walked : d.walk (if path.startsWith "/" then root else [])
            ((path.splitOn "/").filter (· != "")) with
        | .error e =>
            simp only [walked] at leads
            cases leads
        | .ok target =>
            simp only [walked] at leads
            simp only [walk_put free walked]
            exact leads

/-- A name with no slash in it is the name of something in the directory. -/
theorem resolve_plain (d : Directory) {name : String} (single : name.splitOn "/" = [name])
    (relative : name.startsWith "/" = false) (asFile : name.endsWith "/" = false)
    (plain : name ≠ "" ∧ name ≠ "." ∧ name ≠ "..") (named : name.toList.contains '\x00' = false)
    (short : byteLength name.toList ≤ longestName) : d.resolve name = .ok ⟨[name], false⟩ := by
  obtain ⟨filled, notHere, notAbove⟩ := plain
  have parts : [name].filter (· != "") = [name] := List.filter_cons_of_pos (by simpa using filled)
  have walked : d.walk [] [name] = .ok [name] := by
    have here : d.entry? [] = some .folder := rfl
    rw [walk, here]
    simp only [if_neg (Nat.not_lt.mpr short), beq_iff_eq, notHere, notAbove, if_false]
    rfl
  have fits : ¬byteLength name.toList > longestPath :=
    Nat.not_lt.mpr (Nat.le_trans short (by decide))
  rw [resolve, if_neg (by rw [named]; exact Bool.false_ne_true),
    if_neg (by simpa using filled), if_neg fits, single, relative, parts, asFile]
  simp only [Bool.false_eq_true, if_false, walked]
  rfl

/-! ## Writing -/

/-- The directory after a file was written: its path led to a place for a file, and there it is. -/
structure Written (d : Directory) (path : String) (bytes : List UInt8) (name : List String)
    (after : Directory) : Prop where
  leads : d.resolve path = .ok ⟨name, false⟩
  free : d.IsFree name
  put : after = d.put name (.file bytes)

theorem write_ok_iff {after : Directory} :
    d.write path bytes = .ok after ↔ ∃ name, d.Written path bytes name after := by
  constructor
  · intro written
    rw [write] at written
    match leads : d.resolve path with
    | .error e =>
        rw [leads] at written
        cases written
    | .ok ⟨name, asFolder⟩ =>
        rw [leads] at written
        change (if asFolder || d.entry? name = some .folder then _ else _) = _ at written
        split at written
        · cases written
        · rename_i fits
          rw [Bool.or_eq_true, not_or, decide_eq_true_iff] at fits
          cases written
          exact ⟨name, by rw [leads, Bool.eq_false_iff.mpr fits.1], fits.2, rfl⟩
  · rintro ⟨name, leads, free, rfl⟩
    rw [write, leads]
    refine if_neg ?_
    rw [Bool.or_eq_true, decide_eq_true_iff]
    exact not_or.mpr ⟨Bool.false_ne_true, free⟩

/-- What is read where a path leads. -/
def Target.content (t : Target) : Option Entry → Except AccessError (List UInt8)
  | some (.file bytes) => if t.asFolder then .error .notFolder else .ok bytes
  | some .folder => .error .isFolder
  | none => .error .notFound

theorem read_of_resolve {t : Target} {content : Option Entry} (leads : d.resolve path = .ok t)
    (holds : d.entry? t.name = content) : d.read path = t.content content := by
  rw [read, leads, ← holds]
  rfl

/-- A file that holds the bytes of a text is read as that text. -/
theorem readText_of_file {text : String} (leads : d.resolve path = .ok ⟨name, false⟩)
    (file : d.entry? name = some (.file (bytesOf text))) : d.readText path = .ok text := by
  have bytes : d.read path = .ok (bytesOf text) := read_of_resolve leads file
  rw [readText, bytes]
  simp only [bind, Except.bind, ofBytes?_bytesOf]

namespace Written

variable {after : Directory}

/-- Exactly the written file changes. -/
theorem changed (written : d.Written path bytes name after) (other : List String) :
    after.entry? other = if other = name then some (.file bytes) else d.entry? other := by
  rw [written.put, entry?_put written.free]

theorem resolve (written : d.Written path bytes name after) {other : String} {t : Target}
    (leads : d.resolve other = .ok t) : after.resolve other = .ok t := by
  rw [written.put]
  exact resolve_put written.free leads

/-- **The path of a written text reads that text.** -/
theorem readText {text : String} (written : d.Written path (bytesOf text) name after) :
    after.readText path = .ok text :=
  readText_of_file (written.resolve written.leads) (by rw [written.changed, if_pos rfl])

end Written

end Directory

end LogInterface
