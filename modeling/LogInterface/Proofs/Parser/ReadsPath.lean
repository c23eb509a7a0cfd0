/-
# Proofs.Parser.ReadsPath -- paths are read

A path is read as it is written, in a type as in an expression, if nothing follows that it would go
on with; the arguments of its last segment are a parameter (`reads_pathChildren`).

Types, bounds and expressions contain each other, so how deep a grammar nests bounds what it can
read (`Grammar.Deep`).  Paths without arguments need no depth.
-/
import LogInterface.Parser.File
import LogInterface.Proofs.Parser.PlainPath
import LogInterface.Proofs.Parser.Reads

namespace LogInterface

set_option autoImplicit false

/-- The grammar nests so deep, at least. -/
inductive Grammar.Deep : Nat → Grammar → Prop where
  | any (g : Grammar) : Deep 0 g
  | deeper {n : Nat} {g : Grammar} : Deep n g → Deep (n + 1) g.deeper

theorem Grammar.Deep.mono {m n : Nat} {g : Grammar} (deep : g.Deep n) (less : m ≤ n) :
    g.Deep m := by
  induction deep generalizing m with
  | any g => rw [Nat.le_zero.mp less]; exact .any g
  | deeper _ ih =>
      cases m with
      | zero => exact .any _
      | succ m => exact .deeper (ih (Nat.le_of_succ_le_succ less))

theorem Grammar.Deep.inner {n : Nat} {g : Grammar} (deep : g.Deep (n + 1)) :
    ∃ h : Grammar, g = h.deeper ∧ h.Deep n := by
  cases deep with
  | deeper deep => exact ⟨_, rfl, deep⟩

theorem Grammar.ofDepth_deep (laidOut : Bool) (n : Nat) : (Grammar.ofDepth laidOut n).Deep n := by
  induction n with
  | zero => exact .any _
  | succ n ih => exact .deeper ih

namespace Parser

variable {ts us rest : List Token} {g : Grammar} {i : Ident}

/-! ## What follows -/

/-- Does nothing come next that a path would go on with? -/
def endsPath (ts : List Token) : Bool :=
  !startsOperator "::" ts && !startsOperator "<" ts && !startsOperator "#" ts
    && !startsGroup .parenthesis ts

/-- Does nothing come next that a type would go on with? -/
def endsType (ts : List Token) : Bool :=
  endsPath ts && !startsOperator "!" ts && !startsOperator "+" ts

theorem endsPath_iff : endsPath ts = true ↔ startsOperator "::" ts = false ∧
    startsOperator "<" ts = false ∧ startsOperator "#" ts = false ∧
      startsGroup .parenthesis ts = false := by
  simp [endsPath, and_assoc]

theorem endsType_iff : endsType ts = true ↔
    endsPath ts = true ∧ startsOperator "!" ts = false ∧ startsOperator "+" ts = false := by
  simp [endsType, and_assoc]

/-! ## The start of a path -/

/-- The keywords that no path starts with. -/
def foreignWords : List String := keywords.filter fun w => !pathWords.contains w

/-- A path comes next: a word of a path, or the two colons of a root. -/
inductive PathAhead : List Token → Prop where
  | word {i : Ident} (segment : IsSegment i.text) (more : List Token) : PathAhead (i.token :: more)
  | colons (p q : Place) (spacing : Spacing) (more : List Token) :
      PathAhead (.punct ':' .joint p :: .punct ':' spacing q :: more)

theorem startsOperator_token (op : String) (i : Ident) (more : List Token) :
    startsOperator op (i.token :: more) = false := by
  unfold startsOperator Ident.token
  cases op.toList with
  | nil => rfl
  | cons c cs => cases cs <;> rfl

theorem startsWord_token {w : String} (other : i.text ≠ w) (us : List Token) :
    startsWord w (i.token :: us) = false :=
  beq_eq_false_iff_ne.mpr other

/-- No name is a keyword. -/
theorem startsWord_name {w : String} (ordinary : i.text ∉ keywords) (keyword : w ∈ keywords)
    (us : List Token) : startsWord w (i.token :: us) = false :=
  startsWord_token (fun same => ordinary (same ▸ keyword)) us

theorem IsSegment.ne {text : String} (segment : IsSegment text) {w : String}
    (foreign : w ∈ foreignWords) : (text == w) = false := by
  obtain ⟨keyword, other⟩ := List.mem_filter.mp foreign
  refine beq_eq_false_iff_ne.mpr ?_
  rintro rfl
  rcases segment with name | inPath
  · exact name keyword
  · simp [inPath] at other

namespace PathAhead

theorem noWord (ahead : PathAhead ts) {w : String} (foreign : w ∈ foreignWords) :
    startsWord w ts = false := by
  cases ahead with
  | word segment more => exact segment.ne foreign
  | colons => rfl

theorem noneOf (ahead : PathAhead ts) {ws : List String} (foreign : ∀ w ∈ ws, w ∈ foreignWords) :
    startsOneOf ws ts = false :=
  List.any_eq_false.mpr fun w member => Bool.eq_false_iff.mp (ahead.noWord (foreign w member))

theorem noOperator (ahead : PathAhead ts) {op : String} {c : Char} {cs : List Char}
    (spelled : op.toList = c :: cs) (other : c ≠ ':') : startsOperator op ts = false := by
  cases ahead with
  | word _ more => exact startsOperator_token op _ more
  | colons p q spacing more =>
      rw [startsOperator, spelled]
      cases cs <;> simp [startsChars, other]

theorem noGroup (ahead : PathAhead ts) (d : Delimiter) : startsGroup d ts = false := by
  cases ahead <;> rfl

theorem noLifetime (ahead : PathAhead ts) : startsLifetime ts = false := by
  cases ahead <;> rfl

theorem noLiteral (ahead : PathAhead ts) : startsLiteral ts = false := by
  cases ahead with
  | word segment more =>
      exact Bool.or_eq_false_iff.mpr ⟨segment.ne (by decide), segment.ne (by decide)⟩
  | colons => rfl

theorem startsPath (ahead : PathAhead ts) : startsPath ts = true := by
  cases ahead with
  | @word i segment more =>
      have starts := startsSegment_iff.mpr ⟨i, more, rfl, segment⟩
      rw [Parser.startsPath, starts]
      rfl
  | colons => rfl

end PathAhead

/-- The tokens of a path without arguments. -/
def IsPath (ts : List Token) : Prop := ∃ path : PlainPath, path.Written ts

theorem PlainPath.Written.ahead {path : PlainPath} (written : path.Written ts)
    (rest : List Token) : PathAhead (ts ++ rest) := by
  cases written with
  | relative written =>
      obtain ⟨i, more, rfl, segment⟩ := written.head
      exact .word segment _
  | rooted _ => exact .colons _ _ _ _

theorem PlainPath.Written.noBuiltin {path : PlainPath} (written : path.Written ts)
    (sharp : startsOperator "#" rest = false) : startsBuiltin (ts ++ rest) = false := by
  refine Bool.and_eq_false_iff.mpr ?_
  cases written with
  | relative written =>
      cases written with
      | last => exact .inr sharp
      | cons => exact .inr rfl
  | rooted _ => exact .inl rfl

/-! ## Segments -/

section

variable {inExpression : Bool}

theorem reads_pathSegment (segment : IsSegment i.text)
    (angle : inExpression = false → startsOperator "<" rest = false)
    (turbo : (startsOperator "::" rest && startsOperator "<" (skip (skip rest))) = false) :
    (pathSegment g inExpression).Reads [i.token] rest := by
  refine .ahead ?_
  by_cases alone : startsOneOf segmentWords ([i.token] ++ rest) = true
  · exact .pos alone ((reads_anyWord i).done)
  · refine .neg (Bool.eq_false_iff.mpr alone) (.ahead ?_)
    have bare : (!inExpression && startsOperator "<" rest && !startsOperator "<=" rest
        && !startsOperator "<<=" rest) = false := by
      cases inExpression with
      | true => rfl
      | false => rw [angle rfl]; rfl
    have behind : ∀ j, j = i → ReadsAs (do
        let ts ← Parser.ahead
        if !inExpression && startsOperator "<" ts && !startsOperator "<=" ts
            && !startsOperator "<<=" ts then
          return .node .segment [.token j.token, ← angleArguments g []]
        else if startsOperator "::" ts && startsOperator "<" (skip (skip ts)) then
          let colons ← operator "::"
          return .node .segment [.token j.token, ← angleArguments g colons]
        else return plainSegment j) [] rest fun _ => True :=
      fun _ _ => .ahead (.neg bare (.neg turbo (.pure trivial)))
    by_cases self : startsWord "Self" ([i.token] ++ rest) = true
    · exact .pos self ((reads_anyWord i).last behind)
    · -- A word of a path that is none of the four keywords is a name.
      have ordinary : i.text ∉ keywords := by
        rcases segment with name | inPath
        · exact name
        · refine absurd inPath ?_
          simp [startsOneOf, segmentWords, startsWord, Ident.token] at alone self
          simp [pathWords, alone, self]
      exact .neg (Bool.eq_false_iff.mpr self) ((reads_name ordinary).last behind)

/-- Segments are read one by one, the last one with its arguments. -/
theorem reads_segments {arguments : List Token} {is : List Ident} (written : WrittenSegments is ts)
    (last : ∀ i ∈ is.getLast?, IsSegment i.text →
      (pathSegment g inExpression).Reads (i.token :: arguments) rest)
    (ends : startsOperator "::" rest = false) :
    ∃ first more, ts ++ arguments = first ++ more ∧ is.length ≤ more.length + 1 ∧
      (pathSegment g inExpression).Reads first (more ++ rest) ∧
        ∀ fuel, is.length ≤ fuel → (moreSegments g inExpression fuel).Reads more rest := by
  induction written with
  | @last i segment =>
      refine ⟨i.token :: arguments, [], (List.append_nil _).symm, Nat.le_refl _,
        last i rfl segment, ?_⟩
      intro fuel _
      cases fuel with
      | zero => exact .pure trivial
      | succ fuel => exact .ahead (.neg (Bool.and_eq_false_iff.mpr (.inl ends)) (.pure trivial))
  | @cons i is ts spacing p q segment written ih =>
      obtain ⟨first, more, split, shorter, reads, others⟩ :=
        ih fun j isLast => last j (by rwa [List.getLast?_cons_of_ne_nil written.ne_nil])
      obtain ⟨j, behind, head, _⟩ := written.head
      have word (us : List Token) :
          first ++ more ++ us = j.token :: (behind ++ arguments ++ us) := by
        rw [← split, head]
        rfl
      refine ⟨[i.token], .punct ':' .joint p :: .punct ':' spacing q :: (first ++ more),
        ?_, ?_, ?_, ?_⟩
      · rw [← split]
        rfl
      · simp only [List.length_cons, List.length_append] at shorter ⊢
        omega
      · refine reads_pathSegment segment (fun _ => rfl) ?_
        show (true && startsOperator "<" (first ++ more ++ rest)) = false
        rw [word, startsOperator_token]
        rfl
      · intro fuel enough
        obtain ⟨fuel, rfl⟩ := Nat.exists_eq_succ_of_ne_zero (Nat.ne_zero_of_lt enough)
        have noRound : startsGroup .parenthesis (first ++ more ++ rest) = false := by
          rw [word]
          rfl
        refine .ahead (.pos ?_ ?_)
        · show (startsOperator "::" _ && !startsGroup .parenthesis (first ++ more ++ rest)) = true
          rw [noRound]
          exact (Bool.and_true _).trans (startsColons p q spacing _)
        · exact .bind (t := [.punct ':' .joint p, .punct ':' spacing q])
            (reads_operatorTrees (startsColons p q spacing _) rfl) fun _ _ =>
              .bind reads fun _ _ =>
                (others fuel (Nat.le_of_succ_le_succ enough)).done

/-- A path is read as it is written, with the arguments of its last segment. -/
theorem reads_pathChildren {path : PlainPath} {arguments : List Token} (written : path.Written ts)
    (last : ∀ i ∈ path.segments.getLast?, IsSegment i.text →
      (pathSegment g inExpression).Reads (i.token :: arguments) rest)
    (ends : startsOperator "::" rest = false) :
    (pathChildren g inExpression).Reads (ts ++ arguments) rest := by
  have children {root us} (written : WrittenSegments path.segments us) : ReadsAs (do
      let first ← pathSegment g inExpression
      return Tree.ofTokens root ++ [first] ++ (← moreSegments g inExpression (← steps)))
      (us ++ arguments) rest fun _ => True := by
    obtain ⟨first, more, split, shorter, reads, others⟩ := reads_segments written last ends
    rw [split]
    refine .bind reads fun _ _ => .steps ((others _ ?_).done)
    rw [List.length_append]
    omega
  cases written with
  | relative written =>
      obtain ⟨i, more, head, -⟩ := written.head
      refine .skip (skips_operator? ?_) fun _ _ => children written
      rw [head]
      exact startsOperator_token _ _ _
  | @rooted is us spacing p q written =>
      refine .bind (t := [.punct ':' .joint p, .punct ':' spacing q])
        (reads_operator? (startsColons p q spacing _) rfl rfl) fun _ _ => children written

end

/-- A plain path is read where no path goes on. -/
theorem reads_plainPath {inExpression : Bool} (path : IsPath ts)
    (colons : startsOperator "::" rest = false)
    (angle : inExpression = false → startsOperator "<" rest = false) :
    (pathChildren g inExpression).Reads ts rest := by
  obtain ⟨path, written⟩ := path
  rw [← List.append_nil ts]
  refine reads_pathChildren written (fun i _ segment => ?_) colons
  exact reads_pathSegment segment angle (Bool.and_eq_false_iff.mpr (.inl colons))

/-! ## Making paths -/

/-- The tokens of a path that ends in this segment. -/
def IsPathTo (i : Ident) (ts : List Token) : Prop :=
  ∃ path : PlainPath, path.Written ts ∧ path.segments.getLast? = some i

theorem IsPathTo.path (path : IsPathTo i ts) : IsPath ts :=
  have ⟨path, written, _⟩ := path
  ⟨path, written⟩

theorem IsSegment.path (segment : IsSegment i.text) : IsPathTo i [i.token] :=
  ⟨_, .relative (.last segment), rfl⟩

theorem WrittenSegments.append {is : List Ident} (written : WrittenSegments is ts)
    (segment : IsSegment i.text) :
    WrittenSegments (is ++ [i]) (ts ++ (Token.operator "::" ++ [i.token])) := by
  induction written with
  | last first => exact .cons first (.last segment)
  | cons first _ ih => exact .cons first ih

/-- A path goes on with two colons and a segment. -/
theorem IsPath.to (path : IsPath ts) (segment : IsSegment i.text) :
    IsPathTo i (ts ++ (Token.operator "::" ++ [i.token])) := by
  obtain ⟨_, written⟩ := path
  cases written with
  | relative written => exact ⟨_, .relative (written.append segment), List.getLast?_concat⟩
  | rooted written => exact ⟨_, .rooted (written.append segment), List.getLast?_concat⟩

end Parser

end LogInterface
