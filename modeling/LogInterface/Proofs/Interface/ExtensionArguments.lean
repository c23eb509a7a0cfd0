/-
# Proofs.Interface.ExtensionArguments -- the arguments of an annotation

The arguments of `logger_extensions` are a list with commas, like those of `logger_message`.  Each
of them gives the name of the companion or the path of the runtime crate, and either can be written
in two ways: the name alone or behind its key, the path as tokens or in a string literal
(`ExtensionArgument.Written`).

Of a list that is written like this, what is read depends on what the arguments give and on nothing
else (`extensionArguments_answers`): the first one alone may be a name without its key, and neither
the name nor the path may come twice (`Collects`).  And whatever can be read is written like this
(`written_of_extensionArguments`), so these lists are all that there are.
-/
import LogInterface.Proofs.Companion.Rerooting
import LogInterface.Proofs.Interface.Described
import LogInterface.Proofs.Interface.MessageArguments
import LogInterface.Proofs.Parser.PlainPath

namespace LogInterface

set_option autoImplicit false

open LogInterface.Parser

/-! ## Arguments as they are written -/

/-- An argument of `logger_extensions`. -/
inductive ExtensionArgument where
  /-- The name of the companion, by its position or behind its key. -/
  | name (positional : Bool) (literal : StringLiteral)
  /-- The path of the runtime crate, and where it starts. -/
  | runtime (path : PlainPath) (place : Place)

namespace ExtensionArgument

def isPositional : ExtensionArgument → Bool
  | .name positional _ => positional
  | .runtime _ _ => false

def name? : ExtensionArgument → Option StringLiteral
  | .name _ literal => some literal
  | .runtime _ _ => none

def runtime? : ExtensionArgument → Option Tree
  | .name _ _ => none
  | .runtime path place => some (path.tree place)

/-- The tokens of an argument: a string literal alone, `name` and a string literal, or `crate` and a
path, which may stand in a string literal without a suffix. -/
inductive Written : ExtensionArgument → List Token → Prop where
  | positional {l : StringLiteral} : Literal.string? l.written = some l.value →
      Written (.name true l) [.literal l.written l.place]
  | keyed {l : StringLiteral} {spacing : Spacing} {p q : Place} :
      Literal.string? l.written = some l.value →
        Written (.name false l)
          [.ident "name" p, .punct '=' spacing q, .literal l.written l.place]
  | plain {path : PlainPath} {t : Token} {ts : List Token} {spacing : Spacing} {p q : Place} :
      path.Written (t :: ts) →
        Written (.runtime path t.place) (.ident "crate" p :: .punct '=' spacing q :: t :: ts)
  | quoted {path : PlainPath} {l : StringLiteral} {ts : List Token} {spacing : Spacing}
      {p q : Place} : Literal.string? l.written = some l.value → Token.ofSource l.value = .ok ts →
        path.Written (Token.moveAllTo l.place ts) → suffixOf l = "" →
          Written (.runtime path l.place)
            [.ident "crate" p, .punct '=' spacing q, .literal l.written l.place]

end ExtensionArgument

/-- The arguments come to `r`: none but the first stands without a key, and the name and the path
are given at most once. -/
structure Collects (args : List ExtensionArgument) (r : ExtensionArguments) : Prop where
  keyed : ∀ a ∈ args.tail, a.isPositional = false
  name : args.filterMap ExtensionArgument.name? = r.name.toList
  runtime : args.filterMap ExtensionArgument.runtime? = r.runtime.toList

namespace ExtensionArguments

def put (r : ExtensionArguments) : ExtensionArgument → Option ExtensionArguments
  | .name _ l => if r.name.isSome then none else some { r with name := some l }
  | .runtime path place =>
      if r.runtime.isSome then none else some { r with runtime := some (path.tree place) }

def putAll (r : ExtensionArguments) (args : List ExtensionArgument) : Option ExtensionArguments :=
  args.foldlM put r

theorem putAll_cons (r : ExtensionArguments) (a : ExtensionArgument)
    (args : List ExtensionArgument) :
    r.putAll (a :: args) = (r.put a).bind fun r => r.putAll args := List.foldlM_cons

/-- What is put is given in the end, and nothing is given twice. -/
theorem putAll_iff {r r' : ExtensionArguments} {args : List ExtensionArgument} :
    r.putAll args = some r' ↔
      r.name.toList ++ args.filterMap ExtensionArgument.name? = r'.name.toList ∧
        r.runtime.toList ++ args.filterMap ExtensionArgument.runtime? = r'.runtime.toList := by
  -- Two of a kind are more than can be given.
  have twice {α : Type} {x y : α} {xs : List α} {given : Option α} :
      [x] ++ y :: xs ≠ given.toList := by
    cases given <;> simp
  induction args generalizing r with
  | nil =>
      obtain ⟨name, runtime⟩ := r
      obtain ⟨name', runtime'⟩ := r'
      cases name <;> cases runtime <;> cases name' <;> cases runtime' <;> simp [putAll]
  | cons a args ih =>
      obtain ⟨name, runtime⟩ := r
      rw [putAll_cons]
      cases a with
      | name positional l =>
          cases name with
          | some old => exact iff_of_false nofun fun both => twice both.1
          | none => exact ih
      | runtime path place =>
          cases runtime with
          | some old => exact iff_of_false nofun fun both => twice both.2
          | none => exact ih

end ExtensionArguments

/-! ## One argument -/

section

variable {ts tail rest : List Token} {a : ExtensionArgument} {s s' : Stream}

theorem not_startsColons (ends : EndsArgument tail) : ¬startsOperator "::" tail = true := by
  obtain rfl | comma := ends
  · decide
  · cases comma
    simp [startsOperator, startsChars]

/-- A path does not start with a string literal. -/
theorem not_startsString {path : PlainPath} (written : path.Written ts) :
    ¬startsString (ts ++ rest) = true := by
  cases written with
  | relative written =>
      obtain ⟨i, more, rfl, -⟩ := written.head
      exact Bool.false_ne_true
  | rooted => exact Bool.false_ne_true

theorem place_moved (p : Place) (ts : List Token) :
    Stream.place ⟨Token.moveAllTo p ts, p, none⟩ = p := by
  cases ts with
  | nil => rfl
  | cons t ts => cases t <;> rfl

/-- A path in a string literal stands at the literal. -/
theorem withinLiteral_path_iff {l : StringLiteral} {t : Tree} :
    withinLiteral l (fun _ => plainPathTree) = .ok t ↔
      ∃ path ts, Token.ofSource l.value = .ok ts ∧
        PlainPath.Written path (Token.moveAllTo l.place ts) ∧ suffixOf l = "" ∧
        t = path.tree l.place := by
  rw [withinLiteral_ok_iff]
  constructor
  · rintro ⟨ts, lexed, read, plain⟩
    obtain ⟨s, read, all, -⟩ := onAll_ok_iff.mp read
    obtain ⟨path, us, rest, split, written, same, behind⟩ := plainPathTree_ok read
    obtain rfl : rest = [] := by
      rw [behind] at all
      exact all
    rw [List.append_nil] at split
    rw [place_moved] at same
    obtain rfl : Token.moveAllTo l.place ts = us := split
    exact ⟨path, ts, lexed, written, plain, same⟩
  · rintro ⟨path, ts, lexed, written, plain, rfl⟩
    refine ⟨ts, lexed, onAll_ok_iff.mpr ⟨⟨[], l.place, none⟩, ?_, rfl, rfl⟩, plain⟩
    have read := plainPathTree_of_written (s := ⟨Token.moveAllTo l.place ts, l.place, none⟩) written
      (not_startsColons (.inl rfl)) (List.append_nil _).symm
    rw [place_moved] at read
    exact read

theorem runtimePath_of_plain {path : PlainPath} {t : Token} (written : path.Written (t :: ts))
    (ends : EndsArgument tail) :
    runtimePath (.over (t :: ts ++ tail)) = .ok (path.tree t.place, .over tail) := by
  rw [runtimePath, ahead_bind, Stream.over_tokens, if_neg (not_startsString written)]
  exact plainPathTree_of_written written (not_startsColons ends) rfl

theorem runtimePath_of_quoted {path : PlainPath} {l : StringLiteral}
    (denotes : Literal.string? l.written = some l.value) (lexed : Token.ofSource l.value = .ok ts)
    (written : path.Written (Token.moveAllTo l.place ts)) (plain : suffixOf l = "") :
    runtimePath (.over (.literal l.written l.place :: tail))
      = .ok (path.tree l.place, .over tail) := by
  have starts : startsString (.literal l.written l.place :: tail) = true :=
    startsString_iff.mpr ⟨_, _, _, _, rfl, denotes⟩
  have read := withinLiteral_path_iff.mpr ⟨path, ts, lexed, written, plain, rfl⟩
  rw [runtimePath, ahead_bind, Stream.over_tokens, if_pos starts,
    bind_of_ok (string_ok_iff.mpr ⟨tail, rfl, denotes, rfl⟩), read]
  rfl

def unlessGiven (given : Bool) (place : Place) (c : Complaint) (r : ExtensionArguments) :
    Parser ExtensionArguments := do
  if given then failAt place c
  return r

theorem unlessGiven_answers {given : Bool} {place : Place} {c : Complaint}
    {r : ExtensionArguments} :
    Answers (unlessGiven given place c r) s (if given then none else some r) s := by
  cases given with
  | true => exact ⟨_, rfl⟩
  | false => exact rfl

theorem unlessGiven_ok {given : Bool} {place : Place} {c : Complaint} {r r' : ExtensionArguments}
    (answered : unlessGiven given place c r s = .ok (r', s')) : s' = s :=
  (unlessGiven_answers.of_ok answered).2

/-- What an argument gives is put, unless it was given before. -/
theorem namedExtension_answers (written : a.Written ts) (keyed : a.isPositional = false)
    (ends : EndsArgument tail) (r : ExtensionArguments) :
    Answers (namedExtension r) (.over (ts ++ tail)) (r.put a) (.over tail) := by
  cases written with
  | positional => cases keyed
  | keyed denotes =>
      refine .after (word?_of_not (by simp [startsWord])) ?_
      refine .after (name_of_ordinary rfl (by decide)) ?_
      dsimp only
      rw [if_neg (by decide)]
      refine .after (operator_single rfl (by decide) rfl) ?_
      refine .after (string_ok_iff.mpr ⟨tail, rfl, denotes, rfl⟩) ?_
      exact unlessGiven_answers
  | plain written =>
      refine .after (word?_of_word rfl) ?_
      refine .after (operator_single rfl (by decide) rfl) ?_
      refine .after (runtimePath_of_plain written ends) ?_
      exact unlessGiven_answers
  | quoted denotes lexed written plain =>
      refine .after (word?_of_word rfl) ?_
      refine .after (operator_single rfl (by decide) rfl) ?_
      refine .after (runtimePath_of_quoted denotes lexed written plain) ?_
      exact unlessGiven_answers

/-- What is read as the path of the runtime crate is written as one. -/
theorem runtimePath_ok {t : Tree} (answered : runtimePath s = .ok (t, s')) :
    ∃ path place ts rest, s.tokens = ts ++ rest ∧ s' = s.facing rest ∧
      ∀ (spacing : Spacing) (p q : Place), ExtensionArgument.Written (.runtime path place)
        (.ident "crate" p :: .punct '=' spacing q :: ts) := by
  rw [runtimePath, ahead_bind] at answered
  by_cases starts : startsString s.tokens = true
  · rw [if_pos starts] at answered
    obtain ⟨l, _, read, answered⟩ := bind_ok answered
    obtain ⟨rest, tokens, denotes, same⟩ := string_ok_iff.mp read
    cases quoted : withinLiteral l fun _ => plainPathTree with
    | error e =>
        rw [quoted] at answered
        cases answered
    | ok t =>
        obtain ⟨path, ts, lexed, written, plain, -⟩ := withinLiteral_path_iff.mp quoted
        rw [quoted] at answered
        cases answered
        exact ⟨path, l.place, [.literal l.written l.place], rest, tokens, same,
          fun _ _ _ => .quoted denotes lexed written plain⟩
  · rw [if_neg starts] at answered
    obtain ⟨path, ts, rest, tokens, written, -, same⟩ := plainPathTree_ok answered
    obtain ⟨first, more, rfl⟩ := List.exists_cons_of_ne_nil written.ne_nil.2
    exact ⟨path, first.place, _, rest, tokens, same, fun _ _ _ => .plain written⟩

/-- **What is read as an argument with a key is written as one.** -/
theorem written_of_namedExtension {r r' : ExtensionArguments}
    (answered : namedExtension r s = .ok (r', s')) :
    ∃ a ts rest, ExtensionArgument.Written a ts ∧ a.isPositional = false ∧
      s.tokens = ts ++ rest ∧ s' = s.facing rest := by
  by_cases crate : startsWord "crate" s.tokens = true
  · obtain ⟨p, _, tokens⟩ := startsWord_iff.mp crate
    rw [namedExtension, bind_of_ok (word?_of_word tokens)] at answered
    obtain ⟨_, _, equals, answered⟩ := bind_ok answered
    obtain ⟨spacing, q, _, split, rfl⟩ := operator_single_ok rfl (by decide) equals
    obtain ⟨t, _, read, answered⟩ := bind_ok answered
    obtain ⟨path, place, ts, rest, split', rfl, written⟩ := runtimePath_ok read
    refine ⟨_, _, rest, written spacing p q, rfl, ?_, unlessGiven_ok answered⟩
    rw [tokens]
    cases split
    cases split'
    rfl
  · rw [namedExtension, bind_of_ok (word?_of_not crate)] at answered
    obtain ⟨key, _, named, answered⟩ := bind_ok answered
    obtain ⟨_, tokens, -, rfl⟩ := name_ok_iff.mp named
    by_cases isName : key.text = "name"
    · rw [if_neg (by simpa using isName)] at answered
      obtain ⟨_, _, equals, answered⟩ := bind_ok answered
      obtain ⟨spacing, q, _, split, rfl⟩ := operator_single_ok rfl (by decide) equals
      obtain ⟨l, _, read, answered⟩ := bind_ok answered
      obtain ⟨rest, split', denotes, rfl⟩ := string_ok_iff.mp read
      let written : List Token :=
        [.ident "name" key.place, .punct '=' spacing q, .literal l.written l.place]
      refine ⟨.name false l, written, rest, .keyed denotes, rfl, ?_, unlessGiven_ok answered⟩
      rw [tokens, Ident.token, isName]
      cases split
      cases split'
      rfl
    · rw [if_pos (by simpa using isName)] at answered
      cases answered

/-! ## The list -/

theorem ExtensionArgument.Written.ne_nil (written : a.Written ts) : ts ≠ [] := by
  cases written <;> exact List.cons_ne_nil _ _

/-- One round of the loop: an argument, and what is read behind it. -/
theorem namedExtensions_round (written : a.Written ts) (keyed : a.isPositional = false)
    (ends : EndsArgument tail) {r : ExtensionArguments} {fuel : Nat}
    {next : ExtensionArguments → Option ExtensionArguments}
    (behind : ∀ r, Answers (do
      if (← ahead).isEmpty then return r
      let _ ← operator ","
      namedExtensions fuel r) (.over tail) (next r) (.over [])) :
    Answers (namedExtensions (fuel + 1) r) (.over (ts ++ tail)) ((r.put a).bind next)
      (.over []) := by
  have some : ¬(ts ++ tail).isEmpty = true := by
    simp only [List.isEmpty_iff, List.append_eq_nil_iff, written.ne_nil, false_and,
      not_false_eq_true]
  refine .of_eq (ahead_of_not some) ?_
  exact (namedExtension_answers written keyed ends r).bind fun r _ => behind r

theorem namedExtensions_answers {args : List ExtensionArgument} {parts : List (List Token)}
    {tokens : List Token} (separated : Separated parts tokens)
    (written : List.Forall₂ ExtensionArgument.Written args parts)
    (keyed : ∀ a ∈ args, a.isPositional = false) {fuel : Nat} {r : ExtensionArguments}
    (enough : args.length < fuel) :
    Answers (namedExtensions fuel r) (.over tokens) (r.putAll args) (.over []) := by
  induction separated generalizing args fuel r with
  | nil =>
      cases written
      obtain ⟨fuel, rfl⟩ := Nat.exists_eq_add_of_lt enough
      exact rfl
  | last ts =>
      match args, written with
      | [a], .cons first .nil =>
          obtain ⟨fuel, rfl⟩ := Nat.exists_eq_add_of_lt enough
          have atEnd (r : ExtensionArguments) : Answers (do
              if (← ahead).isEmpty then return r
              let _ ← operator ","
              namedExtensions (0 + 1 + fuel) r) (.over []) (some r) (.over []) := rfl
          have whole := namedExtensions_round first (keyed a List.mem_cons_self) (.inl rfl) atEnd
            (r := r)
          rw [List.append_nil] at whole
          rw [ExtensionArguments.putAll_cons]
          exact whole
  | cons ts spacing place separated ih =>
      match args, written with
      | a :: args, .cons first written =>
          obtain ⟨fuel, rfl⟩ := Nat.exists_eq_add_of_lt enough
          obtain ⟨own, others⟩ := List.forall_mem_cons.mp keyed
          rw [ExtensionArguments.putAll_cons]
          refine namedExtensions_round first own (.inr (.comma spacing place _)) fun r => ?_
          refine .of_eq (ahead_of_not Bool.false_ne_true) ?_
          refine .after (comma_over spacing place _) (ih written others ?_)
          rw [List.length_cons]
          omega

/-- An argument with a key starts with a word. -/
theorem not_startsString_of_keyed {args : List ExtensionArgument} {parts : List (List Token)}
    {tokens : List Token} (separated : Separated parts tokens)
    (written : List.Forall₂ ExtensionArgument.Written args parts)
    (keyed : ∀ a ∈ args, a.isPositional = false) : ¬startsString tokens = true := by
  have first {a : ExtensionArgument} {ts : List Token} (written : a.Written ts)
      (own : a.isPositional = false) (tail : List Token) : ¬startsString (ts ++ tail) = true := by
    cases written with
    | positional => cases own
    | keyed | plain | quoted => exact Bool.false_ne_true
  cases separated with
  | nil => exact Bool.false_ne_true
  | last ts =>
      cases written with
      | cons head _ =>
          have alone := first head (keyed _ List.mem_cons_self) []
          rw [List.append_nil] at alone
          exact alone
  | cons ts =>
      cases written with
      | cons head _ => exact first head (keyed _ List.mem_cons_self) _

theorem extensionArguments_of_keyed {args : List ExtensionArgument} {parts : List (List Token)}
    {tokens : List Token} (separated : Separated parts tokens)
    (written : List.Forall₂ ExtensionArgument.Written args parts)
    (keyed : ∀ a ∈ args, a.isPositional = false) :
    Answers extensionArguments (.over tokens) (ExtensionArguments.putAll {} args) (.over []) := by
  have bare := not_startsString_of_keyed separated written keyed
  refine .of_eq (ahead_of_not bare) (.of_eq steps_bind ?_)
  exact namedExtensions_answers separated written keyed
    (separated.length_lt written fun _ _ one => one.ne_nil)

/-- A name by its position, and what is read behind it. -/
theorem extensionArguments_of_positional {l : StringLiteral}
    (denotes : Literal.string? l.written = some l.value) {found : Option ExtensionArguments}
    (behind : Answers (do
      if (← ahead).isEmpty then return { name := some l }
      let _ ← operator ","
      namedExtensions (← steps) { name := some l }) (.over tail) found (.over [])) :
    Answers extensionArguments (.over (.literal l.written l.place :: tail)) found (.over []) := by
  have starts : startsString (.literal l.written l.place :: tail) = true :=
    startsString_iff.mpr ⟨_, _, _, _, rfl, denotes⟩
  refine .of_eq ahead_bind ?_
  rw [Stream.over_tokens, if_pos starts]
  exact .after (string_ok_iff.mpr ⟨tail, rfl, denotes, rfl⟩) behind

/-- **The arguments are read as what they give**, and nothing is given twice. -/
theorem extensionArguments_answers {args : List ExtensionArgument} {parts : List (List Token)}
    {tokens : List Token} (separated : Separated parts tokens)
    (written : List.Forall₂ ExtensionArgument.Written args parts)
    (keyed : ∀ a ∈ args.tail, a.isPositional = false) :
    Answers extensionArguments (.over tokens) (ExtensionArguments.putAll {} args) (.over []) := by
  match args, written with
  | [], .nil => exact extensionArguments_of_keyed separated .nil (List.forall_mem_nil _)
  | a :: others, .cons first written =>
      cases positional : a.isPositional with
      | false =>
          exact extensionArguments_of_keyed separated (.cons first written)
            (List.forall_mem_cons.mpr ⟨positional, keyed⟩)
      | true =>
          cases first with
          | positional denotes =>
              cases separated with
              | last =>
                  cases written
                  exact extensionArguments_of_positional denotes rfl
              | cons _ spacing place separated =>
                  refine extensionArguments_of_positional denotes ?_
                  refine .of_eq (ahead_of_not Bool.false_ne_true) ?_
                  refine .after (comma_over spacing place _) (.of_eq steps_bind ?_)
                  exact namedExtensions_answers separated written keyed
                    (separated.length_lt written fun _ _ one => one.ne_nil)
          | keyed | plain | quoted => cases positional

/-- What is read as arguments with keys is written as such. -/
theorem written_of_namedExtensions {fuel : Nat} {r r' : ExtensionArguments}
    (answered : namedExtensions fuel r s = .ok (r', s')) (enough : s.tokens.length < fuel) :
    ∃ args parts, Separated parts s.tokens ∧
      List.Forall₂ ExtensionArgument.Written args parts ∧
      ∀ a ∈ args, a.isPositional = false := by
  induction fuel generalizing r s with
  | zero => exact absurd enough (Nat.not_lt_zero _)
  | succ fuel ih =>
      rw [namedExtensions, ahead_bind] at answered
      by_cases none : s.tokens.isEmpty = true
      · rw [List.isEmpty_iff.mp none]
        exact ⟨[], [], .nil, .nil, List.forall_mem_nil _⟩
      · rw [if_neg none] at answered
        obtain ⟨r₁, _, first, answered⟩ := bind_ok answered
        obtain ⟨a, ts, rest, written, keyed, split, rfl⟩ := written_of_namedExtension first
        rw [split] at enough ⊢
        rw [ahead_bind] at answered
        by_cases last : (s.facing rest).tokens.isEmpty = true
        · rw [show rest = [] from List.isEmpty_iff.mp last, List.append_nil]
          exact ⟨[a], [ts], .last ts, .cons written .nil, List.forall_mem_singleton.mpr keyed⟩
        · rw [if_neg last] at answered
          obtain ⟨_, _, comma, answered⟩ := bind_ok answered
          obtain ⟨spacing, place, behind, tokens, rfl⟩ := operator_single_ok rfl (by decide) comma
          obtain rfl : rest = .punct ',' spacing place :: behind := tokens
          have fewer : behind.length < fuel := by
            rw [List.length_append, List.length_cons] at enough
            omega
          obtain ⟨args, parts, separated, others, all⟩ := ih answered fewer
          exact ⟨a :: args, ts :: parts, .cons ts spacing place separated, .cons written others,
            List.forall_mem_cons.mpr ⟨keyed, all⟩⟩

/-- **What is read as arguments is written as such.** -/
theorem written_of_extensionArguments {r : ExtensionArguments}
    (answered : extensionArguments s = .ok (r, s')) :
    ∃ args parts, Separated parts s.tokens ∧
      List.Forall₂ ExtensionArgument.Written args parts ∧
      ∀ a ∈ args.tail, a.isPositional = false := by
  rw [extensionArguments, ahead_bind] at answered
  by_cases starts : startsString s.tokens = true
  · rw [if_pos starts] at answered
    obtain ⟨l, _, read, answered⟩ := bind_ok answered
    obtain ⟨rest, tokens, denotes, rfl⟩ := string_ok_iff.mp read
    rw [ahead_bind] at answered
    have first : ExtensionArgument.Written (.name true l) [.literal l.written l.place] :=
      .positional denotes
    rw [tokens]
    by_cases last : (s.facing rest).tokens.isEmpty = true
    · rw [show rest = [] from List.isEmpty_iff.mp last]
      exact ⟨[.name true l], _, .last _, .cons first .nil, List.forall_mem_nil _⟩
    · rw [if_neg last] at answered
      obtain ⟨_, _, comma, answered⟩ := bind_ok answered
      obtain ⟨spacing, place, behind, tokens, rfl⟩ := operator_single_ok rfl (by decide) comma
      obtain rfl : rest = .punct ',' spacing place :: behind := tokens
      rw [steps_bind] at answered
      obtain ⟨args, parts, separated, others, all⟩ :=
        written_of_namedExtensions answered (Nat.lt_succ_self _)
      exact ⟨_ :: args, _ :: parts, .cons _ spacing place separated, .cons first others, all⟩
  · rw [if_neg starts, steps_bind] at answered
    obtain ⟨args, parts, separated, written, all⟩ :=
      written_of_namedExtensions answered (Nat.lt_succ_self _)
    exact ⟨args, parts, separated, written, fun a member => all a (List.mem_of_mem_tail member)⟩

end

/-! ## What the arguments say -/

def WrittenAs (args : List ExtensionArgument) (tokens : List Token) : Prop :=
  ∃ parts, Separated parts tokens ∧ List.Forall₂ ExtensionArgument.Written args parts

/-- What one argument says, however it is written: the text of a name, or the way a path goes. -/
inductive Said where
  | name (text : String)
  | runtime (route : Route)
  deriving DecidableEq, Repr

def Said.name? : Said → Option String
  | .name text => some text
  | .runtime _ => none

def Said.route? : Said → Option Route
  | .name _ => none
  | .runtime route => some route

def ExtensionArgument.said : ExtensionArgument → Said
  | .name _ literal => .name literal.value
  | .runtime path _ => .runtime ⟨path.rooted, path.segments.map Ident.text⟩

/-- What all arguments say: the name, and the way that the path of the runtime crate goes. -/
def ExtensionArguments.says (r : ExtensionArguments) : Option String × Option (Option Route) :=
  (r.name.map StringLiteral.value, r.runtime.map fun path => Route.ofTokens? path.tokens)

section

variable {args args' : List ExtensionArgument} {tokens tokens' : List Token}
  {r r' : ExtensionArguments}

theorem ofTokens_ok_iff (written : WrittenAs args tokens)
    (keyed : ∀ a ∈ args.tail, a.isPositional = false) :
    ExtensionArguments.ofTokens tokens = .ok r ↔ Collects args r := by
  obtain ⟨parts, separated, written⟩ := written
  have answers := extensionArguments_answers separated written keyed
  refine ((onAll_answers answers).1 r).trans (ExtensionArguments.putAll_iff.trans ?_)
  exact ⟨fun ⟨name, runtime⟩ => ⟨keyed, name, runtime⟩, fun ⟨_, name, runtime⟩ => ⟨name, runtime⟩⟩

theorem length_le_one_iff {α : Type} {xs : List α} :
    xs.length ≤ 1 ↔ xs = xs.head?.toList := by
  match xs with
  | [] => simp
  | [x] => simp
  | x :: y :: xs => simp

/-- Arguments come to something unless one is given twice. -/
theorem exists_collects_iff (keyed : ∀ a ∈ args.tail, a.isPositional = false) :
    (∃ r, Collects args r) ↔ (args.filterMap ExtensionArgument.name?).length ≤ 1 ∧
      (args.filterMap ExtensionArgument.runtime?).length ≤ 1 := by
  constructor
  · rintro ⟨r, -, name, runtime⟩
    rw [name, runtime]
    exact ⟨Option.length_toList_le, Option.length_toList_le⟩
  · rintro ⟨name, runtime⟩
    exact ⟨⟨_, _⟩, keyed, length_le_one_iff.mp name, length_le_one_iff.mp runtime⟩

theorem names_said (args : List ExtensionArgument) :
    (args.map ExtensionArgument.said).filterMap Said.name?
      = (args.filterMap ExtensionArgument.name?).map StringLiteral.value := by
  rw [List.filterMap_map, List.map_filterMap]
  exact List.filterMap_congr fun a _ => by cases a <;> rfl

theorem routes_said (written : WrittenAs args tokens) :
    ((args.map ExtensionArgument.said).filterMap Said.route?).map some
      = (args.filterMap ExtensionArgument.runtime?).map fun path =>
        Route.ofTokens? path.tokens := by
  obtain ⟨parts, -, written⟩ := written
  rw [List.filterMap_map, List.map_filterMap, List.map_filterMap]
  refine List.filterMap_congr fun a member => ?_
  cases a with
  | name => rfl
  | runtime path place =>
      -- The path was written, so it has a segment.
      obtain ⟨ts, -, own⟩ := exists_of_forall₂ written.flip _ member
      have filled : path.segments ≠ [] := by
        cases own with
        | plain own => exact own.ne_nil.1
        | quoted _ _ own _ => exact own.ne_nil.1
      obtain ⟨m, tree, route⟩ := ModulePath.exists_tree_of_plain filled place
      show some (some _) = some (Route.ofTokens? (path.tree place).tokens)
      rw [tree, ModulePath.ofTokens?_tree, route]

theorem map_eq_of_perm {α β : Type} {given given' : Option α} {f : α → β}
    (same : (given.toList.map f).Perm (given'.toList.map f)) : given.map f = given'.map f := by
  cases given <;> cases given' <;> simp_all

/-- Arguments that say the same in any order come to the same. -/
theorem says_of_perm (written : WrittenAs args tokens) (written' : WrittenAs args' tokens')
    (collects : Collects args r) (collects' : Collects args' r')
    (same : (args.map ExtensionArgument.said).Perm (args'.map ExtensionArgument.said)) :
    r.says = r'.says := by
  have names := same.filterMap Said.name?
  have routes := (same.filterMap Said.route?).map some
  rw [names_said, names_said, collects.name, collects'.name] at names
  rw [routes_said written, routes_said written', collects.runtime, collects'.runtime] at routes
  exact Prod.ext (map_eq_of_perm names) (map_eq_of_perm routes)

/-- Arguments that say the same in any order come to something, or do not. -/
theorem exists_collects_of_perm (written : WrittenAs args tokens)
    (written' : WrittenAs args' tokens') (keyed : ∀ a ∈ args.tail, a.isPositional = false)
    (keyed' : ∀ a ∈ args'.tail, a.isPositional = false)
    (same : (args.map ExtensionArgument.said).Perm (args'.map ExtensionArgument.said)) :
    (∃ r, Collects args r) ↔ ∃ r, Collects args' r := by
  have names := (same.filterMap Said.name?).length_eq
  have routes := (same.filterMap Said.route?).length_eq
  have length {args : List ExtensionArgument} {tokens : List Token}
      (written : WrittenAs args tokens) :
      ((args.map ExtensionArgument.said).filterMap Said.route?).length
        = (args.filterMap ExtensionArgument.runtime?).length := by
    have lists := congrArg List.length (routes_said written)
    rwa [List.length_map, List.length_map] at lists
  rw [names_said, names_said, List.length_map, List.length_map] at names
  rw [length written, length written'] at routes
  rw [exists_collects_iff keyed, exists_collects_iff keyed', names, routes]

end

/-- What the arguments of `logger_extensions` are read as.  Read are the lists of an optional name
alone, and of names and paths behind their keys, in any order, with commas between them and possibly
one at the end, in which neither is given twice, and no others.  Lists that say the same are both
read or both refused, and what they are read as says the same, whatever the order is, and however
the name and the path are written. -/
theorem extension_arguments_exact :
    (∀ tokens r, ExtensionArguments.ofTokens tokens = .ok r
      ↔ ∃ args, WrittenAs args tokens ∧ Collects args r) ∧
    ∀ args args' tokens tokens', WrittenAs args tokens → WrittenAs args' tokens' →
      (∀ a ∈ args.tail, a.isPositional = false) → (∀ a ∈ args'.tail, a.isPositional = false) →
      (args.map ExtensionArgument.said).Perm (args'.map ExtensionArgument.said) →
      ((∃ r, ExtensionArguments.ofTokens tokens = .ok r)
        ↔ ∃ r, ExtensionArguments.ofTokens tokens' = .ok r) ∧
      ∀ r r', ExtensionArguments.ofTokens tokens = .ok r →
        ExtensionArguments.ofTokens tokens' = .ok r' → r.says = r'.says := by
  constructor
  · intro tokens r
    constructor
    · intro read
      obtain ⟨s, answered, -⟩ := onAll_ok_iff.mp read
      obtain ⟨args, parts, separated, written, keyed⟩ := written_of_extensionArguments answered
      have writtenAs : WrittenAs args tokens := ⟨parts, separated, written⟩
      exact ⟨args, writtenAs, (ofTokens_ok_iff writtenAs keyed).mp read⟩
    · rintro ⟨args, written, collects⟩
      exact (ofTokens_ok_iff written collects.keyed).mpr collects
  · intro args args' tokens tokens' written written' keyed keyed' same
    simp only [ofTokens_ok_iff written keyed, ofTokens_ok_iff written' keyed']
    exact ⟨exists_collects_of_perm written written' keyed keyed' same,
      fun r r' collects collects' => says_of_perm written written' collects collects' same⟩

/-- The name alone and a path; or a path in a string literal, the name behind its key, and a comma
at the end. -/
theorem extension_arguments_exact_orders :
    ∃ tokens tokens' r r', Token.ofSource "\"App\", crate = ::a" = .ok tokens ∧
      Token.ofSource "crate = \"::a\", name = \"App\"," = .ok tokens' ∧
      ExtensionArguments.ofTokens tokens = .ok r ∧ ExtensionArguments.ofTokens tokens' = .ok r' ∧
      r.says = (some "App", some (some ⟨true, ["a"]⟩)) ∧ r'.says = r.says := by
  let path (place : Place) : PlainPath := ⟨true, [⟨"a", place⟩]⟩
  let args : List ExtensionArgument :=
    [.name true ⟨"\"App\"", "App", ⟨1, 0⟩⟩, .runtime (path ⟨1, 17⟩) ⟨1, 15⟩]
  let tokens : List Token :=
    [.literal "\"App\"" ⟨1, 0⟩, .punct ',' .alone ⟨1, 5⟩, .ident "crate" ⟨1, 7⟩,
      .punct '=' .alone ⟨1, 13⟩, .punct ':' .joint ⟨1, 15⟩, .punct ':' .alone ⟨1, 16⟩,
      .ident "a" ⟨1, 17⟩]
  let args' : List ExtensionArgument :=
    [.runtime (path ⟨1, 8⟩) ⟨1, 8⟩, .name false ⟨"\"App\"", "App", ⟨1, 22⟩⟩]
  let tokens' : List Token :=
    [.ident "crate" ⟨1, 0⟩, .punct '=' .alone ⟨1, 6⟩, .literal "\"::a\"" ⟨1, 8⟩,
      .punct ',' .alone ⟨1, 13⟩, .ident "name" ⟨1, 15⟩, .punct '=' .alone ⟨1, 20⟩,
      .literal "\"App\"" ⟨1, 22⟩, .punct ',' .alone ⟨1, 27⟩]
  have app : Literal.string? "\"App\"" = some "App" := by decide
  have quoted : Literal.string? "\"::a\"" = some "::a" := by decide
  have segment (place : Place) : WrittenSegments [⟨"a", place⟩] [.ident "a" place] :=
    .last (.inl (show "a" ∉ keywords by decide))
  have written : WrittenAs args tokens :=
    ⟨_, .cons [_] .alone ⟨1, 5⟩ (.last _),
      .cons (.positional app) (.cons (.plain (.rooted (segment _))) .nil)⟩
  have written' : WrittenAs args' tokens' :=
    ⟨_, .cons [_, _, _] .alone ⟨1, 13⟩ (.cons [_, _, _] .alone ⟨1, 27⟩ .nil),
      .cons (.quoted (l := ⟨"\"::a\"", "::a", ⟨1, 8⟩⟩) quoted rfl (.rooted (segment _)) rfl)
        (.cons (.keyed app) .nil)⟩
  have collects : Collects args
      ⟨some ⟨"\"App\"", "App", ⟨1, 0⟩⟩, some ((path ⟨1, 17⟩).tree ⟨1, 15⟩)⟩ :=
    ⟨List.forall_mem_singleton.mpr rfl, rfl, rfl⟩
  have collects' : Collects args'
      ⟨some ⟨"\"App\"", "App", ⟨1, 22⟩⟩, some ((path ⟨1, 8⟩).tree ⟨1, 8⟩)⟩ :=
    ⟨List.forall_mem_singleton.mpr rfl, rfl, rfl⟩
  have read := (extension_arguments_exact.1 tokens _).mpr ⟨args, written, collects⟩
  have read' := (extension_arguments_exact.1 tokens' _).mpr ⟨args', written', collects'⟩
  have alike := extension_arguments_exact.2 args args' tokens tokens' written written'
    collects.keyed collects'.keyed (.swap _ _ _)
  exact ⟨tokens, tokens', _, _, by rfl, by rfl, read, read', by rfl,
    (alike.2 _ _ read read').symm⟩

end LogInterface
