/-
# Proofs.Generation.LoaderLine -- a first line for the loader

A file may start with a line for the system's loader.  It is no token: it is left out before the
tokens are read, a file does not hold it, and what is printed is made of tokens.  So the line has
no part in the answer: a source with such a line is answered like the source without it, and like
a source with any other such line (`loaderLine_lost`).
-/
import LogInterface.Proofs.Generation.Contribution
import LogInterface.Proofs.Text.Cut

namespace LogInterface

open LogInterface.Text

set_option autoImplicit false

/-! ## Reading -/

namespace SourceFile

def ofCode (cs : List Char) : Except ParseError SourceFile :=
  match Token.ofChars cs with
  | .error place => throw ⟨place, .rule noTokens, false⟩
  | .ok tokens => SourceFile.ofTokens false tokens

theorem ofChars_unmarked {cs : List Char} (unmarked : ∀ c, cs.head? = some c → c ≠ byteOrderMark) :
    ofChars cs = ofCode (dropLoaderLine cs) := by
  cases cs with
  | nil => rfl
  | cons c cs =>
      have kept : (if c = byteOrderMark then cs else c :: cs) = c :: cs :=
        if_neg (unmarked c rfl)
      show ofCode (dropLoaderLine (if c = byteOrderMark then cs else c :: cs)) = _
      rw [kept]

theorem ofChars_marked (cs : List Char) :
    ofChars (byteOrderMark :: cs) = ofCode (dropLoaderLine cs) := rfl

end SourceFile

/-! ## Loader lines -/

/-- A line for the loader in front of the rest of a source: its mark starts no attribute. -/
structure LoaderLine (line rest : List Char) : Prop where
  marked : ∃ cs, line = '#' :: '!' :: cs ∧
    (skipBlanks (cs ++ rest).length (cs ++ rest)).head? ≠ some '['
  single : '\n' ∉ line
  /-- The line is a whole one. -/
  ends : ∀ c, rest.head? = some c → c = '\n'

namespace LoaderLine

variable {line rest : List Char}

theorem dropLoaderLine_append (loads : LoaderLine line rest) :
    dropLoaderLine (line ++ rest) = rest := by
  obtain ⟨cs, rfl, unbracketed⟩ := loads.marked
  have stops : rest.dropWhile (· ≠ '\n') = rest := by
    cases rest with
    | nil => rfl
    | cons c rest => exact List.dropWhile_cons_of_neg (by simpa using loads.ends c rfl)
  rw [List.cons_append, List.cons_append, dropLoaderLine, if_neg unbracketed]
  exact (List.dropWhile_append_of_pos (passed_of_notMem loads.single)).trans stops

/-- There is no second line for the loader. -/
theorem dropLoaderLine_rest (loads : LoaderLine line rest) : dropLoaderLine rest = rest := by
  cases rest with
  | nil => rfl
  | cons c rest =>
      obtain rfl := loads.ends c rfl
      rfl

/-- A file is read as if the line were not there, with a byte order mark in front of it or
without one. -/
theorem ofSource_append (loads : LoaderLine line rest) {mark : List Char}
    (marks : mark = [] ∨ mark = [byteOrderMark]) :
    SourceFile.ofSource (String.ofList (mark ++ line ++ rest))
      = SourceFile.ofSource (String.ofList rest) := by
  have unmarkedLine : ∀ c, (line ++ rest).head? = some c → c ≠ byteOrderMark := by
    obtain ⟨cs, rfl, -⟩ := loads.marked
    rintro c same
    cases same
    decide
  have unmarkedRest : ∀ c, rest.head? = some c → c ≠ byteOrderMark := by
    intro c isFirst
    obtain rfl := loads.ends c isFirst
    decide
  have whole : SourceFile.ofChars (mark ++ line ++ rest)
      = SourceFile.ofCode (dropLoaderLine (line ++ rest)) := by
    rcases marks with rfl | rfl
    · exact SourceFile.ofChars_unmarked unmarkedLine
    · exact SourceFile.ofChars_marked (line ++ rest)
  rw [ofSource_ofList, ofSource_ofList, whole, SourceFile.ofChars_unmarked unmarkedRest,
    loads.dropLoaderLine_append, loads.dropLoaderLine_rest]

end LoaderLine

/-! ## Generated files -/

def firstLine (text : String) : List Char := (cutAt '\n' text.toList).1

/-- With a header the first line is a comment. -/
theorem firstLine_header (printed : String) :
    (firstLine (generatedHeader ++ printed)).head? = some '/' := by
  have first : (generatedHeader ++ printed).toList
      = '/' :: (generatedHeader.toList.tail ++ printed.toList) := by
    rw [String.toList_append]
    rfl
  rw [firstLine, first, cutAt, List.takeWhile_cons_of_pos (by decide), List.head?_cons]

/-- A generated file with a header starts with the header. -/
theorem header_of_generate {source : String} {settings : Settings} (header : settings.header = true)
    {g : Generated} (generated : generate source settings = .ok g) :
    ∃ printed, g.source = generatedHeader ++ printed := by
  rw [generate] at generated
  split at generated
  · rename_i f _
    rw [SourceFile.generate] at generated
    split at generated
    · rw [SourceFile.printed, header] at generated
      split at generated
      · cases generated
      · rename_i whole _
        cases generated
        exact ⟨whole.text, rfl⟩
    · cases generated
  · cases generated

/-- **A line for the loader is lost.**  A source with such a line is answered like the source
without it, whatever the line is.  So what is generated from it has the same first line as for any
other loader line, and if there is a header, then none of them. -/
theorem loaderLine_lost {line rest : List Char} (loads : LoaderLine line rest) {mark : List Char}
    (marks : mark = [] ∨ mark = [byteOrderMark]) (settings : Settings) :
    generate (String.ofList (mark ++ line ++ rest)) settings
        = generate (String.ofList rest) settings ∧
      ∀ g, generate (String.ofList (mark ++ line ++ rest)) settings = .ok g →
        (settings.header = true → firstLine g.source ≠ line) ∧
        ∀ other, LoaderLine other rest →
          generate (String.ofList (mark ++ other ++ rest)) settings = .ok g := by
  have answered {line : List Char} (loads : LoaderLine line rest) :
      generate (String.ofList (mark ++ line ++ rest)) settings
        = generate (String.ofList rest) settings := by
    rw [generate, generate, loads.ofSource_append marks]
  refine ⟨answered loads, fun g generated => ⟨fun header same => ?_, fun other alsoLoads => ?_⟩⟩
  · obtain ⟨printed, shown⟩ := header_of_generate header generated
    obtain ⟨cs, rfl, -⟩ := loads.marked
    have first : some '/' = some '#' := by
      rw [← firstLine_header printed, ← shown, same, List.head?_cons]
    exact absurd first (by decide)
  · rw [answered alsoLoads, ← answered loads, generated]

namespace Sample

def loaderLine : List Char := "#!/usr/bin/env run-cargo-script".toList

def script : List Char := "\nfn main() \x7b\x7d\n".toList

theorem script_loads : LoaderLine loaderLine script where
  marked := ⟨"/usr/bin/env run-cargo-script".toList, rfl, by decide⟩
  single := by decide
  ends := by
    intro c first
    cases first
    rfl

end Sample

theorem loaderLine_lost_sample :
    LoaderLine Sample.loaderLine Sample.script ∧
      generate (String.ofList (Sample.loaderLine ++ Sample.script)) {}
        = generate (String.ofList Sample.script) {} :=
  ⟨Sample.script_loads, (loaderLine_lost Sample.script_loads (.inl rfl) {}).1⟩

/-- The script is accepted, and its first line is gone, with a header and without one. -/
theorem script_generated :
    LoaderLine Sample.loaderLine Sample.script ∧ ∀ header, ∃ g,
      generate (String.ofList (Sample.loaderLine ++ Sample.script)) { header } = .ok g ∧
        firstLine g.source ≠ Sample.loaderLine := by
  refine ⟨Sample.script_loads, fun header => ?_⟩
  obtain ⟨f, parses, checked⟩ := exists_file_of_check
    (String.ofList (Sample.loaderLine ++ Sample.script))
    (fun f => [true, false].all fun header =>
      (f.generate { header }).toOption.any fun g => firstLine g.source != Sample.loaderLine)
    rfl (by decide +kernel)
  have each := List.all_eq_true.mp checked header (by cases header <;> decide)
  rw [generate_parsed parses]
  match f.generate { header }, each with
  | .ok g, other => exact ⟨g, rfl, bne_iff_ne.mp other⟩

end LogInterface
