/-
# Proofs.Parser.PlainPath -- paths without arguments

A plain path is words with two colons between each two, and it may have two more in front
(`PlainPath.Written`).  Its words are names, or one of the four keywords that a path may hold.

Reading is greedy: it goes on behind every two colons and fails if no word follows there.  So what
is read is as much of the tokens ahead as can be written like this (`plainPath_ok`), and a path is
read as it is written wherever no colons follow it (`plainPath_of_written`).
-/
import LogInterface.Proofs.Parser.Locality

namespace LogInterface.Parser

set_option autoImplicit false

/-- A word that can be a segment: a name, or one that is a name only within a path. -/
def IsSegment (text : String) : Prop := text ∉ keywords ∨ text ∈ pathWords

/-- Words with two colons between each two. -/
inductive WrittenSegments : List Ident → List Token → Prop where
  | last {i : Ident} : IsSegment i.text → WrittenSegments [i] [i.token]
  | cons {i : Ident} {is : List Ident} {ts : List Token} {spacing : Spacing} {p q : Place} :
      IsSegment i.text → WrittenSegments is ts →
        WrittenSegments (i :: is) (i.token :: .punct ':' .joint p :: .punct ':' spacing q :: ts)

/-- The tokens of a plain path. -/
inductive PlainPath.Written : PlainPath → List Token → Prop where
  | relative {is : List Ident} {ts : List Token} : WrittenSegments is ts → Written ⟨false, is⟩ ts
  | rooted {is : List Ident} {ts : List Token} {spacing : Spacing} {p q : Place} :
      WrittenSegments is ts →
        Written ⟨true, is⟩ (.punct ':' .joint p :: .punct ':' spacing q :: ts)

/-! ## Words and colons -/

theorem startsSegment_iff {ts : List Token} :
    (startsName ts || startsOneOf pathWords ts) = true
      ↔ ∃ (i : Ident) (rest : List Token), ts = i.token :: rest ∧ IsSegment i.text := by
  have word (text : String) (place : Place) (rest : List Token) :
      (startsName (.ident text place :: rest)
        || startsOneOf pathWords (.ident text place :: rest)) = true ↔ IsSegment text := by
    simp [startsName, startsOneOf, startsWord, IsSegment]
  constructor
  · intro starts
    cases ts with
    | nil => simp [startsName, startsOneOf, startsWord] at starts
    | cons t rest =>
        cases t with
        | ident text place => exact ⟨⟨text, place⟩, rest, rfl, (word ..).mp starts⟩
        | punct | literal | group => simp [startsName, startsOneOf, startsWord] at starts
  · rintro ⟨i, rest, rfl, segment⟩
    exact (word ..).mpr segment

theorem startsColons (p q : Place) (spacing : Spacing) (rest : List Token) :
    startsOperator "::" (.punct ':' .joint p :: .punct ':' spacing q :: rest) = true := by
  simp [startsOperator, startsChars]

theorem not_startsColons_token (i : Ident) (rest : List Token) :
    ¬startsOperator "::" (i.token :: rest) = true := by
  simp [startsOperator, startsChars, Ident.token]

theorem operator?_colons {s : Stream} {p q : Place} {spacing : Spacing} {rest : List Token}
    (tokens : s.tokens = .punct ':' .joint p :: .punct ':' spacing q :: rest) :
    operator? "::" s = .ok (Token.operatorAt s.place [':', ':'], s.facing rest) := by
  rw [operator?_of_starts (tokens ▸ startsColons p q spacing rest), tokens]
  rfl

section

variable {s s' : Stream} {i : Ident} {is : List Ident} {ts rest : List Token} {fuel : Nat}

theorem anyWord_of_token (tokens : s.tokens = i.token :: rest) :
    anyWord s = .ok (i, s.facing rest) := by
  rw [anyWord, ahead_bind, tokens]
  rfl

theorem WrittenSegments.length_le (written : WrittenSegments is ts) : is.length ≤ ts.length := by
  induction written with
  | last => exact Nat.le_refl _
  | cons _ _ ih =>
      simp only [List.length_cons]
      omega

/-- Segments start with a word. -/
theorem WrittenSegments.head (written : WrittenSegments is ts) :
    ∃ (i : Ident) (more : List Token), ts = i.token :: more ∧ IsSegment i.text := by
  cases written with
  | last segment => exact ⟨_, _, rfl, segment⟩
  | cons segment _ => exact ⟨_, _, rfl, segment⟩

/-! ## Segments -/

/-- One round of the loop: a word is read, and the colons behind it say whether more follow. -/
theorem plainSegments_succ (tokens : s.tokens = i.token :: rest) (segment : IsSegment i.text) :
    plainSegments (fuel + 1) s = (do
      if (← operator? "::").isEmpty then return [i]
      return i :: (← plainSegments fuel)) (s.facing rest) := by
  have starts := startsSegment_iff.mpr ⟨i, rest, tokens, segment⟩
  rw [plainSegments, ahead_bind, if_pos starts, bind_of_ok (anyWord_of_token tokens)]

theorem plainSegments_of_written (written : WrittenSegments is ts)
    (ends : ¬startsOperator "::" rest = true) (enough : is.length ≤ fuel)
    (tokens : s.tokens = ts ++ rest) : plainSegments fuel s = .ok (is, s.facing rest) := by
  induction written generalizing fuel s with
  | last segment =>
      obtain ⟨fuel, rfl⟩ := Nat.exists_eq_add_of_le' enough
      rw [List.length_singleton, plainSegments_succ tokens segment,
        bind_of_ok (operator?_of_not ends)]
      rfl
  | @cons i is ts spacing p q segment _ ih =>
      obtain ⟨fuel, rfl⟩ := Nat.exists_eq_add_of_le' enough
      rw [List.length_cons, ← Nat.add_assoc, plainSegments_succ tokens segment,
        bind_of_ok (operator?_colons rfl)]
      exact bind_of_ok (ih (Nat.le_add_left _ _) rfl)

theorem plainSegments_ok (answered : plainSegments fuel s = .ok (is, s'))
    (enough : s.tokens.length < fuel) :
    ∃ ts rest, s.tokens = ts ++ rest ∧ WrittenSegments is ts ∧ s' = s.facing rest := by
  induction fuel generalizing s is with
  | zero => exact absurd enough (Nat.not_lt_zero _)
  | succ fuel ih =>
      by_cases starts : (startsName s.tokens || startsOneOf pathWords s.tokens) = true
      · obtain ⟨i, rest, tokens, segment⟩ := startsSegment_iff.mp starts
        rw [plainSegments_succ tokens segment] at answered
        by_cases colons : startsOperator "::" rest = true
        · obtain ⟨p, spacing, q, behind, rfl⟩ := startsColons_ok colons
          rw [bind_of_ok (operator?_colons rfl)] at answered
          obtain ⟨more, _, read, answered⟩ := bind_ok answered
          cases answered
          have fewer : behind.length < fuel := by
            rw [tokens] at enough
            simp only [List.length_cons] at enough
            omega
          obtain ⟨ts, rest, split, written, same⟩ := ih (s := (s.facing _).facing behind) read fewer
          refine ⟨i.token :: .punct ':' .joint p :: .punct ':' spacing q :: ts, rest, ?_,
            .cons segment written, same⟩
          rw [tokens, show behind = ts ++ rest from split]
          rfl
        · rw [bind_of_ok (operator?_of_not colons)] at answered
          cases answered
          exact ⟨[i.token], rest, tokens, .last segment, rfl⟩
      · rw [plainSegments, ahead_bind, if_neg starts] at answered
        cases answered

/-! ## Paths -/

variable {path : PlainPath}

/-- Reads a plain path behind its leading colons. -/
def unrootedPath (rooted : Bool) : Parser PlainPath := do
  let ts ← ahead
  if startsName ts || startsOneOf pathWords ts then
    return ⟨rooted, ← plainSegments (← steps)⟩
  else
    let i ← name
    return ⟨rooted, [i]⟩

theorem plainPath_eq : plainPath = (do unrootedPath (!(← operator? "::").isEmpty)) := rfl

theorem unrootedPath_of_written {rooted : Bool} (written : WrittenSegments is ts)
    (ends : ¬startsOperator "::" rest = true) (tokens : s.tokens = ts ++ rest) :
    unrootedPath rooted s = .ok (⟨rooted, is⟩, s.facing rest) := by
  obtain ⟨i, more, first, segment⟩ := written.head
  have starts : (startsName s.tokens || startsOneOf pathWords s.tokens) = true :=
    startsSegment_iff.mpr ⟨i, more ++ rest, by rw [tokens, first]; rfl, segment⟩
  have enough : is.length ≤ s.tokens.length + 1 := by
    have shorter := written.length_le
    rw [tokens, List.length_append]
    omega
  rw [unrootedPath, ahead_bind, if_pos starts, steps_bind,
    bind_of_ok (plainSegments_of_written written ends enough tokens)]
  rfl

theorem unrootedPath_ok {rooted : Bool} (answered : unrootedPath rooted s = .ok (path, s')) :
    ∃ is ts rest, path = ⟨rooted, is⟩ ∧ s.tokens = ts ++ rest ∧ WrittenSegments is ts ∧
      s' = s.facing rest := by
  rw [unrootedPath, ahead_bind] at answered
  by_cases starts : (startsName s.tokens || startsOneOf pathWords s.tokens) = true
  · rw [if_pos starts, steps_bind] at answered
    obtain ⟨is, _, read, answered⟩ := bind_ok answered
    obtain ⟨ts, rest, split, written, same⟩ := plainSegments_ok read (Nat.lt_succ_self _)
    cases answered
    exact ⟨is, ts, rest, rfl, split, written, same⟩
  · -- What is no segment is no name either.
    rw [if_neg starts] at answered
    obtain ⟨i, _, read, -⟩ := bind_ok answered
    obtain ⟨rest, tokens, ordinary, -⟩ := name_ok_iff.mp read
    exact absurd (startsSegment_iff.mpr ⟨i, rest, tokens, .inl ordinary⟩) starts

/-- **A plain path is read as it is written** wherever no colons follow it. -/
theorem plainPath_of_written (written : path.Written ts) (ends : ¬startsOperator "::" rest = true)
    (tokens : s.tokens = ts ++ rest) : plainPath s = .ok (path, s.facing rest) := by
  rw [plainPath_eq]
  cases written with
  | relative written =>
      obtain ⟨i, more, first, -⟩ := written.head
      have bare : ¬startsOperator "::" s.tokens = true := by
        rw [tokens, first]
        exact not_startsColons_token i _
      rw [bind_of_ok (operator?_of_not bare)]
      exact unrootedPath_of_written written ends tokens
  | rooted written =>
      rw [bind_of_ok (operator?_colons tokens)]
      exact unrootedPath_of_written written ends rfl

/-- **What is read as a plain path is written as one.** -/
theorem plainPath_ok (answered : plainPath s = .ok (path, s')) :
    ∃ ts rest, s.tokens = ts ++ rest ∧ path.Written ts ∧ s' = s.facing rest := by
  rw [plainPath_eq] at answered
  by_cases colons : startsOperator "::" s.tokens = true
  · obtain ⟨p, spacing, q, behind, tokens⟩ := startsColons_ok colons
    rw [bind_of_ok (operator?_colons tokens)] at answered
    obtain ⟨is, ts, rest, rfl, split, written, same⟩ := unrootedPath_ok answered
    refine ⟨.punct ':' .joint p :: .punct ':' spacing q :: ts, rest, ?_, .rooted written, same⟩
    rw [tokens, show behind = ts ++ rest from split]
    rfl
  · rw [bind_of_ok (operator?_of_not colons)] at answered
    obtain ⟨is, ts, rest, rfl, split, written, same⟩ := unrootedPath_ok answered
    exact ⟨ts, rest, split, .relative written, same⟩

/-! ## Trees -/

theorem WrittenSegments.ne_nil (written : WrittenSegments is ts) : is ≠ [] := by
  cases written <;> exact List.cons_ne_nil _ _

/-- A path has a segment, and a token. -/
theorem PlainPath.Written.ne_nil (written : path.Written ts) : path.segments ≠ [] ∧ ts ≠ [] := by
  cases written with
  | relative written =>
      obtain ⟨i, more, rfl, -⟩ := written.head
      exact ⟨written.ne_nil, List.cons_ne_nil _ _⟩
  | rooted written => exact ⟨written.ne_nil, List.cons_ne_nil _ _⟩

theorem plainPathTree_of_written (written : path.Written ts)
    (ends : ¬startsOperator "::" rest = true) (tokens : s.tokens = ts ++ rest) :
    plainPathTree s = .ok (path.tree s.place, s.facing rest) := by
  rw [plainPathTree, here_bind, bind_of_ok (plainPath_of_written written ends tokens)]
  rfl

theorem plainPathTree_ok {t : Tree} (answered : plainPathTree s = .ok (t, s')) :
    ∃ path ts rest, s.tokens = ts ++ rest ∧ PlainPath.Written path ts ∧ t = path.tree s.place ∧
      s' = s.facing rest := by
  rw [plainPathTree, here_bind] at answered
  obtain ⟨path, _, read, answered⟩ := bind_ok answered
  obtain ⟨ts, rest, split, written, same⟩ := plainPath_ok read
  cases answered
  exact ⟨path, ts, rest, split, written, rfl, same⟩

end

end LogInterface.Parser
