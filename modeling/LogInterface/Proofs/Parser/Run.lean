/-
# Proofs.Parser.Run -- what a parser does with a stream

Equations for the parsers from which all others are put together: looking ahead, going on,
reading one token.  A parser that was made with `do` is taken apart by `bind_ok` and run step by
step by `bind_of_ok`, so no other proof has to know what a parser is.  `Answers` says both what is
read and that nothing is, for a parser that reads what some function finds.
-/
import LogInterface.Parser.Stream

namespace LogInterface

set_option autoImplicit false

/-- Where the next token stands, or else the end. -/
def Stream.place (s : Stream) : Place := (s.tokens.head?.map Token.place).getD s.ending

/-- The stream with other tokens ahead. -/
def Stream.facing (s : Stream) (tokens : List Token) : Stream := { s with tokens }

namespace Parser

variable {α β : Type} {s s' s'' : Stream}

/-! ## Putting parsers together -/

theorem pure_apply (a : α) : (pure a : Parser α) s = .ok (a, s) := rfl

theorem bind_of_ok {p : Parser α} {f : α → Parser β} {a : α} (read : p s = .ok (a, s')) :
    (p >>= f) s = f a s' := by
  show (p s >>= fun r => f r.1 r.2) = _
  rw [read]
  rfl

theorem bind_of_error {p : Parser α} {f : α → Parser β} {e : ParseError}
    (failed : p s = .error e) : (p >>= f) s = .error e := by
  show (p s >>= fun r => f r.1 r.2) = _
  rw [failed]
  rfl

theorem bind_ok {p : Parser α} {f : α → Parser β} {b : β}
    (answered : (p >>= f) s = .ok (b, s'')) :
    ∃ a s', p s = .ok (a, s') ∧ f a s' = .ok (b, s'') := by
  cases read : p s with
  | error e =>
      rw [bind_of_error read] at answered
      cases answered
  | ok r =>
      rw [bind_of_ok read] at answered
      exact ⟨r.1, r.2, rfl, answered⟩

/-- The parser answers what there is and goes on to `s'`, and fails if there is nothing. -/
def Answers (p : Parser α) (s : Stream) (found : Option α) (s' : Stream) : Prop :=
  match found with
  | some a => p s = .ok (a, s')
  | none => ∃ e, p s = .error e

theorem Answers.of_eq {p q : Parser α} {t : Stream} {found : Option α} (same : p s = q t)
    (answers : Answers q t found s') : Answers p s found s' := by
  unfold Answers at answers ⊢
  rw [same]
  exact answers

theorem Answers.after {p : Parser α} {f : α → Parser β} {a : α} {found : Option β}
    (read : p s = .ok (a, s')) (rest : Answers (f a) s' found s'') :
    Answers (p >>= f) s found s'' := .of_eq (bind_of_ok read) rest

theorem Answers.bind {p : Parser α} {f : α → Parser β} {found : Option α} {next : α → Option β}
    (first : Answers p s found s') (rest : ∀ a, found = some a → Answers (f a) s' (next a) s'') :
    Answers (p >>= f) s (found.bind next) s'' := by
  cases found with
  | none =>
      obtain ⟨e, failed⟩ := first
      exact ⟨e, bind_of_error failed⟩
  | some a => exact .after first (rest a rfl)

theorem Answers.of_ok {p : Parser α} {found : Option α} {a : α} (answers : Answers p s found s')
    (read : p s = .ok (a, s'')) : found = some a ∧ s'' = s' := by
  cases found with
  | none =>
      obtain ⟨e, failed⟩ := answers
      rw [failed] at read
      cases read
  | some b =>
      unfold Answers at answers
      rw [answers] at read
      cases read
      exact ⟨rfl, rfl⟩

theorem Answers.of_error {p : Parser α} {found : Option α} {e : ParseError}
    (answers : Answers p s found s') (failed : p s = .error e) : found = none := by
  cases found with
  | none => rfl
  | some a =>
      unfold Answers at answers
      rw [answers] at failed
      cases failed

/-! ## Failing -/

theorem failHere_apply (c : Complaint) :
    (failHere c : Parser α) s = .error ⟨s.place, c, s.tokens.isEmpty⟩ := rfl

theorem failAt_apply (p : Place) (c : Complaint) :
    (failAt p c : Parser α) s = .error ⟨p, c, false⟩ := rfl

/-! ## Looking ahead and going on -/

theorem get_bind {f : Stream → Parser β} : (get >>= f) s = f s s := rfl

theorem set_bind {f : PUnit → Parser β} : (set s' >>= f) s = f ⟨⟩ s' := rfl

theorem ahead_bind {f : List Token → Parser β} : (ahead >>= f) s = f s.tokens s := rfl

theorem ahead_of_not {b : List Token → Bool} {f h : List Token → Parser β}
    (other : ¬b s.tokens = true) :
    (ahead >>= fun ts => if b ts then f ts else h ts) s = h s.tokens s :=
  congrFun (if_neg other) s

theorem here_bind {f : Place → Parser β} : (here >>= f) s = f s.place s := rfl

theorem steps_bind {f : Nat → Parser β} : (steps >>= f) s = f (s.tokens.length + 1) s := rfl

theorem advance_bind {tokens : List Token} {f : Unit → Parser β} :
    (advance tokens >>= f) s = f () (s.facing tokens) := rfl

/-! ## Operators -/

theorem startsChars_singleton {c : Char} (noQuote : c ≠ '\'') {ts : List Token} :
    startsChars [c] ts = true ↔ ∃ spacing place rest, ts = .punct c spacing place :: rest := by
  constructor
  · intro starts
    match ts, starts with
    | .punct d spacing place :: rest, starts =>
        obtain ⟨same, -⟩ : c = d ∧ d ≠ '\'' := by simpa [startsChars] using starts
        exact ⟨spacing, place, rest, by rw [same]⟩
  · rintro ⟨spacing, place, rest, rfl⟩
    simp [startsChars, noQuote]

theorem startsChars_joint {c d : Char} {cs : List Char} {ts : List Token}
    (starts : startsChars (c :: d :: cs) ts = true) :
    ∃ place rest, ts = .punct c .joint place :: rest ∧ startsChars (d :: cs) rest = true := by
  cases ts with
  | nil => cases starts
  | cons t rest =>
      cases t with
      | punct e spacing place =>
          have first : (c = e ∧ e ≠ '\'') ∧ spacing = .joint ∧
              startsChars (d :: cs) rest = true := by
            simpa [startsChars, and_assoc] using starts
          obtain ⟨⟨rfl, -⟩, rfl, behind⟩ := first
          exact ⟨place, rest, rfl, behind⟩
      | _ => cases starts

theorem operator_of_starts {op : String} (starts : startsOperator op s.tokens = true) :
    operator op s
      = .ok (Token.operatorAt s.place op.toList, s.facing (s.tokens.drop op.length)) := by
  rw [operator, here_bind, ahead_bind, if_pos starts]
  rfl

theorem operator_of_not {op : String} (other : ¬startsOperator op s.tokens = true) :
    operator op s = .error ⟨s.place, .expected [quoted op], false⟩ := by
  rw [operator, here_bind, ahead_bind, if_neg other]
  rfl

theorem operator_ok {op : String} {read : List Token} (answered : operator op s = .ok (read, s')) :
    startsOperator op s.tokens = true ∧ read = Token.operatorAt s.place op.toList ∧
      s' = s.facing (s.tokens.drop op.length) := by
  by_cases starts : startsOperator op s.tokens = true
  · rw [operator_of_starts starts] at answered
    cases answered
    exact ⟨starts, rfl, rfl⟩
  · rw [operator_of_not starts] at answered
    cases answered

/-- An operator of one character is one token. -/
theorem operator_single_ok {op : String} {c : Char} (single : op.toList = [c]) (noQuote : c ≠ '\'')
    {read : List Token} (answered : operator op s = .ok (read, s')) :
    ∃ spacing place rest, s.tokens = .punct c spacing place :: rest ∧ s' = s.facing rest := by
  obtain ⟨starts, -, same⟩ := operator_ok answered
  rw [startsOperator, single] at starts
  obtain ⟨spacing, place, rest, tokens⟩ := (startsChars_singleton noQuote).mp starts
  have one : op.length = 1 := by rw [← String.length_toList, single]; rfl
  refine ⟨spacing, place, rest, tokens, ?_⟩
  rw [same, tokens, one]
  rfl

theorem operator_single {op : String} {c : Char} (single : op.toList = [c]) (noQuote : c ≠ '\'')
    {spacing : Spacing} {place : Place} {rest : List Token}
    (tokens : s.tokens = .punct c spacing place :: rest) :
    operator op s = .ok ([.punct c .alone place], s.facing rest) := by
  have starts : startsOperator op s.tokens = true := by
    rw [startsOperator, single]
    exact (startsChars_singleton noQuote).mpr ⟨spacing, place, rest, tokens⟩
  have one : op.length = 1 := by rw [← String.length_toList, single]; rfl
  rw [operator_of_starts starts, single, one, tokens, Stream.place, tokens]
  rfl

theorem operator?_of_starts {op : String} (starts : startsOperator op s.tokens = true) :
    operator? op s
      = .ok (Token.operatorAt s.place op.toList, s.facing (s.tokens.drop op.length)) := by
  rw [operator?, ahead_bind, if_pos starts, operator_of_starts starts]

theorem operator?_of_not {op : String} (other : ¬startsOperator op s.tokens = true) :
    operator? op s = .ok ([], s) := by
  rw [operator?, ahead_bind, if_neg other]
  rfl

/-! ## Names -/

theorem name_of_ordinary {text : String} {place : Place} {rest : List Token}
    (tokens : s.tokens = .ident text place :: rest) (ordinary : text ∉ keywords) :
    name s = .ok (⟨text, place⟩, s.facing rest) := by
  have known : ¬keywords.contains text = true := by simpa using ordinary
  rw [name, ahead_bind, tokens]
  dsimp only
  rw [if_neg known]
  rfl

theorem name_ok_iff {i : Ident} :
    name s = .ok (i, s') ↔
      ∃ rest, s.tokens = i.token :: rest ∧ i.text ∉ keywords ∧ s' = s.facing rest := by
  constructor
  · intro read
    rw [name, ahead_bind] at read
    generalize tokens : s.tokens = ts at read
    split at read
    · rename_i text place rest
      split at read
      · cases read
      · rename_i ordinary
        cases read
        exact ⟨rest, rfl, by simpa using ordinary, rfl⟩
    · cases read
  · rintro ⟨rest, tokens, ordinary, rfl⟩
    exact name_of_ordinary tokens ordinary

/-! ## Keywords -/

theorem word?_of_word {w : String} {place : Place} {rest : List Token}
    (tokens : s.tokens = .ident w place :: rest) :
    word? w s = .ok (some place, s.facing rest) := by
  have starts : startsWord w s.tokens = true := by
    rw [tokens]
    exact beq_self_eq_true w
  rw [word?, ahead_bind, if_pos starts, map_eq_pure_bind, word]
  show ((ahead >>= _) >>= _) s = _
  rw [bind_assoc, ahead_bind, tokens]
  dsimp only
  rw [if_pos (beq_self_eq_true w)]
  rfl

theorem word?_of_not {w : String} (other : ¬startsWord w s.tokens = true) :
    word? w s = .ok (none, s) := by
  rw [word?, ahead_bind, if_neg other]
  rfl

theorem startsWord_iff {w : String} {ts : List Token} :
    startsWord w ts = true ↔ ∃ place rest, ts = .ident w place :: rest := by
  constructor
  · intro starts
    match ts, starts with
    | .ident text place :: rest, starts => exact ⟨place, rest, by rw [beq_iff_eq.mp starts]⟩
  · rintro ⟨place, rest, rfl⟩
    exact beq_self_eq_true w

/-! ## String literals -/

theorem startsString_iff {ts : List Token} :
    startsString ts = true ↔ ∃ text value place rest, ts = .literal text place :: rest ∧
      Literal.string? text = some value := by
  constructor
  · intro starts
    match ts, starts with
    | .literal text place :: rest, starts =>
        obtain ⟨value, denotes⟩ := Option.isSome_iff_exists.mp starts
        exact ⟨text, value, place, rest, rfl, denotes⟩
  · rintro ⟨text, value, place, rest, rfl, denotes⟩
    exact Option.isSome_iff_exists.mpr ⟨value, denotes⟩

theorem string_ok_iff {l : StringLiteral} :
    string s = .ok (l, s') ↔
      ∃ rest, s.tokens = .literal l.written l.place :: rest ∧
        Literal.string? l.written = some l.value ∧ s' = s.facing rest := by
  rw [string, ahead_bind]
  constructor
  · intro read
    generalize s.tokens = ts at read
    split at read
    · rename_i text place rest
      cases denotes : Literal.string? text with
      | none =>
          rw [denotes] at read
          cases read
      | some value =>
          rw [denotes] at read
          cases read
          exact ⟨rest, rfl, denotes, rfl⟩
    · cases read
  · rintro ⟨rest, tokens, denotes, rfl⟩
    rw [tokens]
    dsimp only
    rw [denotes]
    rfl

/-! ## All tokens -/

/-- A text is read if all of it is, and nothing was left over in a group. -/
theorem onAll_ok_iff {p : Parser α} {tokens : List Token} {ending : Place} {a : α} :
    onAll p tokens ending = .ok a ↔
      ∃ s, p ⟨tokens, ending, none⟩ = .ok (a, s) ∧ s.tokens = [] ∧ s.leftover = none := by
  show (p ⟨tokens, ending, none⟩ >>= _) = _ ↔ _
  cases answered : p ⟨tokens, ending, none⟩ with
  | error e => exact iff_of_false nofun fun ⟨_, read, _⟩ => nomatch read
  | ok r =>
      obtain ⟨b, rest, ending, leftover⟩ := r
      simp only [Except.ok.injEq, Prod.mk.injEq]
      constructor
      · intro finished
        match rest, leftover, finished with
        | [], none, finished => exact ⟨_, ⟨Except.ok.inj finished, rfl⟩, rfl, rfl⟩
      · rintro ⟨_, ⟨rfl, rfl⟩, rfl, rfl⟩
        rfl

end Parser

end LogInterface
