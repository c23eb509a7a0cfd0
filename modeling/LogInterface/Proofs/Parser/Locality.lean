/-
# Proofs.Parser.Locality -- what stands behind a comma does not matter

A parser is `Local` if whatever it reads from all tokens ahead, it reads just so when a comma and
any further tokens stand behind them, and leaves these alone.  So an argument that can be read by
itself can be read in a list of arguments.

Most parsers are local because their parts are: there is a lemma for each way to put parsers
together.  They are about two parsers, since the same part may be given another place to complain
about or more fuel when more tokens stand behind.  Where a parser asks what comes next, the
question has to be `Blind` for the comma: the answer there is the one at the end.  Inside a group
nothing is different at all, since a group ends at its own bracket.
-/
import LogInterface.Parser.Grammar
import LogInterface.Proofs.Parser.Run

namespace LogInterface

set_option autoImplicit false

/-- The stream with more tokens behind those that are ahead. -/
def Stream.followedBy (s : Stream) (tail : List Token) : Stream := s.facing (s.tokens ++ tail)

/-- The stream ends where the other one does, and has no more tokens ahead. -/
structure Stream.Within (s' s : Stream) : Prop where
  ending : s'.ending = s.ending
  shorter : s'.tokens.length ≤ s.tokens.length

theorem Stream.Within.refl (s : Stream) : s.Within s := ⟨rfl, Nat.le_refl _⟩

theorem Stream.Within.trans {s s' s'' : Stream} (last : s''.Within s') (first : s'.Within s) :
    s''.Within s :=
  ⟨last.ending.trans first.ending, Nat.le_trans last.shorter first.shorter⟩

namespace Parser

/-- A comma comes first. -/
inductive StartsComma : List Token → Prop where
  | comma (spacing : Spacing) (place : Place) (ts : List Token) :
      StartsComma (.punct ',' spacing place :: ts)

/-- What `p` reads from a stream, `q` reads from it with more tokens behind it, and leaves these
alone. -/
def Agree {α : Type} (tail : List Token) (s : Stream) (p q : Parser α) : Prop :=
  ∀ a s', p s = .ok (a, s') →
    s'.Within s ∧ q (s.followedBy tail) = .ok (a, s'.followedBy tail)

/-- Whatever `p` reads, `q` reads in front of a comma. -/
def Alike {α : Type} (p q : Parser α) : Prop :=
  ∀ tail, StartsComma tail → ∀ s, Agree tail s p q

/-- What the parser reads does not depend on what stands behind a comma. -/
abbrev Local {α : Type} (p : Parser α) : Prop := Alike p p

/-- The answer at a comma is the one at the end. -/
def Blind (b : List Token → Bool) : Prop :=
  ∀ tail, StartsComma tail → ∀ ts, b (ts ++ tail) = b ts

section

variable {α β : Type} {tail : List Token} {s : Stream}

/-! ## Putting parsers together -/

theorem agree_pure (a : α) : Agree tail s (pure a) (pure a) := by
  intro b s' answered
  cases answered
  exact ⟨.refl s, rfl⟩

theorem agree_of_error {p q : Parser α} {e : ParseError} (failed : p s = .error e) :
    Agree tail s p q := by
  intro a s' answered
  rw [failed] at answered
  cases answered

theorem agree_bind {p q : Parser α} {f h : α → Parser β} (first : Agree tail s p q)
    (next : ∀ a s', p s = .ok (a, s') → s'.tokens.length ≤ s.tokens.length →
      Agree tail s' (f a) (h a)) :
    Agree tail s (p >>= f) (q >>= h) := by
  intro b s'' answered
  obtain ⟨a, s', read, answered⟩ := bind_ok answered
  obtain ⟨within, same⟩ := first a s' read
  obtain ⟨within', same'⟩ := next a s' read within.shorter b s'' answered
  refine ⟨within'.trans within, ?_⟩
  rw [bind_of_ok same, same']

/-- Tokens are read, never put back. -/
theorem Alike.shorter {p q : Parser α} (alike : Alike p q) {s' : Stream} {a : α}
    (answered : p s = .ok (a, s')) : s'.tokens.length ≤ s.tokens.length :=
  (alike _ (.comma .alone .nowhere []) s a s' answered).1.shorter

theorem agree_ite {c c' : Bool} {p p' q q' : Parser α} (same : c' = c) (yes : Agree tail s p p')
    (no : Agree tail s q q') : Agree tail s (if c then p else q) (if c' then p' else q') := by
  rw [same]
  split
  · exact yes
  · exact no

theorem alike_pure (a : α) : Local (pure a) := fun _ _ _ => agree_pure a

theorem alike_bind {p q : Parser α} {f h : α → Parser β} (first : Alike p q)
    (next : ∀ a, Alike (f a) (h a)) : Alike (p >>= f) (q >>= h) :=
  fun tail comma s => agree_bind (first tail comma s) fun a s' _ _ => next a tail comma s'

theorem alike_failHere {c : Complaint} {q : Parser α} : Alike (failHere c) q :=
  fun _ _ _ => agree_of_error (failHere_apply c)

theorem alike_failExpecting {choices : List String} {q : Parser α} :
    Alike (failExpecting choices) q := alike_failHere

theorem alike_failAt {place : Place} {c : Complaint} {q : Parser α} : Alike (failAt place c) q :=
  fun _ _ _ => agree_of_error (failAt_apply place c)

theorem alike_ite {c : Prop} [Decidable c] {p p' q q' : Parser α} (yes : Alike p p')
    (no : Alike q q') : Alike (if c then p else q) (if c then p' else q') := by
  split
  · exact yes
  · exact no

/-! ## Looking ahead -/

theorem alike_ahead {f h : List Token → Parser α}
    (agree : ∀ tail, StartsComma tail → ∀ s, Agree tail s (f s.tokens) (h (s.tokens ++ tail))) :
    Alike (ahead >>= f) (ahead >>= h) :=
  fun tail comma s => agree tail comma s

theorem alike_ahead_const {p q : Parser α} (alike : Alike p q) :
    Alike (ahead >>= fun _ => p) (ahead >>= fun _ => q) :=
  fun tail comma s => alike tail comma s

theorem alike_ahead_ite {b : List Token → Bool} {f f' h h' : List Token → Parser α}
    (blind : Blind b) (yes : Alike (ahead >>= f) (ahead >>= f'))
    (no : Alike (ahead >>= h) (ahead >>= h')) :
    Alike (ahead >>= fun ts => if b ts then f ts else h ts)
      (ahead >>= fun ts => if b ts then f' ts else h' ts) := by
  exact alike_ahead fun tail comma s =>
    agree_ite (blind tail comma s.tokens) (yes tail comma s) (no tail comma s)

/-- A parser that takes the first token apart. -/
theorem local_ahead_cons {f : List Token → Parser α}
    (first : ∀ t ts tail, StartsComma tail → ∀ s, s.tokens = t :: ts →
      Agree tail s (f (t :: ts)) (f (t :: (ts ++ tail))))
    (atEnd : ∀ s, s.tokens = [] → ∃ e, f [] s = .error e) : Local (ahead >>= f) := by
  refine alike_ahead fun tail comma s => ?_
  generalize tokens : s.tokens = ts
  cases ts with
  | nil =>
      obtain ⟨e, failed⟩ := atEnd s tokens
      exact agree_of_error failed
  | cons t ts => exact first t ts tail comma s tokens

/-- Places are needed for complaints only. -/
theorem alike_here {f h : Place → Parser α} (alike : ∀ p q, Alike (f p) (h q)) :
    Alike (here >>= f) (here >>= h) :=
  fun tail comma s => alike _ _ tail comma s

theorem alike_ahead_here {f h : List Token → Place → Parser α}
    (alike : ∀ p q, Alike (ahead >>= fun ts => f ts p) (ahead >>= fun ts => h ts q)) :
    Alike (ahead >>= fun ts => here >>= f ts) (ahead >>= fun ts => here >>= h ts) :=
  fun tail comma s => alike _ _ tail comma s

theorem agree_advance {rest : List Token} (shorter : rest.length ≤ s.tokens.length) (a : α) :
    Agree tail s (do advance rest; return a) (do advance (rest ++ tail); return a) := by
  intro b s' answered
  cases answered
  exact ⟨⟨rfl, shorter⟩, rfl⟩

/-! ## Questions -/

theorem blind_const (b : Bool) : Blind fun _ => b := fun _ _ _ => rfl

theorem blind_not {b : List Token → Bool} (blind : Blind b) : Blind fun ts => !b ts :=
  fun tail comma ts => congrArg not (blind tail comma ts)

theorem blind_and {b c : List Token → Bool} (first : Blind b) (second : Blind c) :
    Blind fun ts => b ts && c ts :=
  fun tail comma ts => by simp only [first tail comma, second tail comma]

theorem blind_or {b c : List Token → Bool} (first : Blind b) (second : Blind c) :
    Blind fun ts => b ts || c ts :=
  fun tail comma ts => by simp only [first tail comma, second tail comma]

/-- A comma ends no lifetime. -/
theorem skip_append (comma : StartsComma tail) {ts : List Token} (some : ts ≠ []) :
    skip (ts ++ tail) = skip ts ++ tail := by
  fun_cases skip ts with
  | case1 => rfl
  | case2 t rest other =>
      rw [List.cons_append, skip]
      intro place text q more quote word
      cases rest with
      | nil =>
          obtain ⟨spacing, place, ts⟩ := comma
          cases word
      | cons u rest =>
          cases word
          exact other place text q rest quote rfl
  | case3 => exact absurd rfl some

/-- A question about the second token, asked where there is a first one. -/
theorem blind_behind {b c : List Token → Bool} (first : Blind b) (atEnd : b [] = false)
    (second : Blind c) : Blind fun ts => b ts && c (skip ts) := by
  intro tail comma ts
  cases ts with
  | nil => simp only [first tail comma, atEnd, Bool.false_and]
  | cons t ts =>
      simp only [first tail comma, skip_append comma (List.cons_ne_nil t ts), second tail comma]

theorem blind_startsWord (word : String) : Blind (startsWord word) := by
  rintro tail ⟨spacing, place, more⟩ (_ | ⟨t, ts⟩)
  · rfl
  · cases t <;> rfl

theorem blind_startsGroup (d : Delimiter) : Blind (startsGroup d) := by
  rintro tail ⟨spacing, place, more⟩ (_ | ⟨t, ts⟩)
  · rfl
  · cases t <;> rfl

theorem blind_startsName : Blind startsName := by
  rintro tail ⟨spacing, place, more⟩ (_ | ⟨t, ts⟩)
  · rfl
  · cases t <;> rfl

theorem blind_startsAnyWord : Blind startsAnyWord := by
  rintro tail ⟨spacing, place, more⟩ (_ | ⟨t, ts⟩)
  · rfl
  · cases t <;> rfl

theorem blind_startsString : Blind startsString := by
  rintro tail ⟨spacing, place, more⟩ (_ | ⟨t, ts⟩)
  · rfl
  · cases t <;> rfl

theorem blind_startsLifetime : Blind startsLifetime := by
  rintro tail ⟨spacing, place, more⟩ ts
  fun_cases startsLifetime ts with
  | case1 => rfl
  | case2 _ other =>
      rw [startsLifetime]
      intro place text q rest same
      match ts, same with
      | [], same => cases same
      | [t], same => cases same
      | t :: u :: ts, same =>
          cases same
          exact other place text q ts rfl

theorem blind_startsLiteral : Blind startsLiteral := by
  rintro tail ⟨spacing, place, more⟩ ts
  fun_cases startsLiteral ts with
  | case1 | case2 | case3 => rfl
  | case4 _ noLiteral noWord noNumber =>
      rw [startsLiteral]
      · intro text place rest same
        match ts, same with
        | [], same => cases same
        | t :: ts, same =>
            cases same
            exact noLiteral text place ts rfl
      · intro text place rest same
        match ts, same with
        | [], same => cases same
        | t :: ts, same =>
            cases same
            exact noWord text place ts rfl
      · intro spacing place text q rest same
        match ts, same with
        | [], same => cases same
        | [t], same => cases same
        | t :: u :: ts, same =>
            cases same
            exact noNumber spacing place text q ts rfl

theorem blind_startsOneOf (words : List String) : Blind (startsOneOf words) := by
  intro tail comma ts
  rw [startsOneOf, startsOneOf]
  congr 1
  funext w
  exact blind_startsWord w tail comma ts

theorem startsChars_append (comma : StartsComma tail) {cs : List Char} (none : ',' ∉ cs)
    (ts : List Token) : startsChars cs (ts ++ tail) = startsChars cs ts := by
  induction cs generalizing ts with
  | nil => rfl
  | cons c cs ih =>
      cases ts with
      | nil =>
          obtain ⟨spacing, place, more⟩ := comma
          have other : (c == ',') = false := by
            rw [beq_eq_false_iff_ne]
            exact fun same => none (same ▸ List.mem_cons_self)
          cases cs <;> simp only [List.nil_append, startsChars, other, Bool.false_and]
      | cons t ts =>
          have later := ih (fun member => none (List.mem_cons_of_mem _ member)) ts
          cases t <;> cases cs <;> simp only [List.cons_append, startsChars, later]

theorem blind_startsOperator {op : String} (none : ',' ∉ op.toList) : Blind (startsOperator op) :=
  fun _ comma ts => startsChars_append comma none ts

/-- An operator is found in tokens that are there. -/
theorem startsChars_length {cs : List Char} {ts : List Token} (starts : startsChars cs ts = true) :
    0 < cs.length ∧ cs.length ≤ ts.length := by
  fun_induction startsChars cs ts with
  | case1 =>
      simp only [List.length_cons, List.length_nil]
      omega
  | case2 _ _ _ _ _ _ _ ih =>
      simp only [Bool.and_eq_true] at starts
      have inner := ih starts.2
      simp only [List.length_cons]
      omega
  | case3 => cases starts

/-- What comes next comes next whatever follows. -/
theorem startsChars_grows {cs : List Char} {ts : List Token} (starts : startsChars cs ts = true)
    (more : List Token) : startsChars cs (ts ++ more) = true := by
  fun_induction startsChars cs ts with
  | case1 => exact starts
  | case2 c cs d spacing place rest nonempty ih =>
      simp only [Bool.and_eq_true] at starts
      rw [List.cons_append, startsChars]
      · simp only [Bool.and_eq_true]
        exact ⟨starts.1, ih starts.2⟩
      · exact nonempty
  | case3 => cases starts

theorem startsOperator_length {op : String} {ts : List Token}
    (starts : startsOperator op ts = true) : 0 < op.length ∧ op.length ≤ ts.length := by
  rw [← String.length_toList]
  exact startsChars_length starts

theorem startsColons_ok {ts : List Token} (starts : startsOperator "::" ts = true) :
    ∃ p spacing q rest, ts = .punct ':' .joint p :: .punct ':' spacing q :: rest := by
  obtain ⟨p, more, rfl, behind⟩ := startsChars_joint (c := ':') (d := ':') starts
  obtain ⟨spacing, q, rest, rfl⟩ := (startsChars_singleton (by decide)).mp behind
  exact ⟨p, spacing, q, rest, rfl⟩

/-- Behind two colons it can be asked what comes next. -/
theorem blind_behindColons {b : List Token → Bool} (blind : Blind b) :
    Blind fun ts => startsOperator "::" ts && b (skip (skip ts)) := by
  intro tail comma ts
  have colons : startsOperator "::" (ts ++ tail) = startsOperator "::" ts :=
    blind_startsOperator (by decide) tail comma ts
  by_cases starts : startsOperator "::" ts = true
  · obtain ⟨p, spacing, q, rest, rfl⟩ := startsColons_ok starts
    have same : b (rest ++ tail) = b rest := blind tail comma rest
    simp only [colons]
    exact congrArg (startsOperator "::" _ && ·) same
  · rw [Bool.not_eq_true] at starts
    simp only [colons, starts, Bool.false_and]

/-! ## One token -/

theorem alike_map {p q : Parser α} {f : α → β} (alike : Alike p q) : Alike (f <$> p) (f <$> q) :=
  alike_bind alike fun a => alike_pure (f a)

theorem operator_shorter {op : String} {s s' : Stream} {read : List Token}
    (answered : operator op s = .ok (read, s')) : s'.tokens.length < s.tokens.length := by
  obtain ⟨starts, -, rfl⟩ := operator_ok answered
  have length := startsOperator_length starts
  show (s.tokens.drop op.length).length < s.tokens.length
  rw [List.length_drop]
  omega

theorem operator?_shorter {op : String} {s s' : Stream} {read : List Token}
    (answered : operator? op s = .ok (read, s')) (some : ¬read.isEmpty = true) :
    s'.tokens.length < s.tokens.length := by
  by_cases starts : startsOperator op s.tokens = true
  · rw [operator?_of_starts starts, ← operator_of_starts starts] at answered
    exact operator_shorter answered
  · rw [operator?_of_not starts] at answered
    cases answered
    exact absurd rfl some

theorem operatorTrees_shorter {op : String} {s s' : Stream} {ts : List Tree}
    (answered : operatorTrees op s = .ok (ts, s')) : s'.tokens.length < s.tokens.length := by
  obtain ⟨read, _, answered, same⟩ := bind_ok answered
  cases same
  exact operator_shorter answered

theorem place_followedBy (some : s.tokens ≠ []) : (s.followedBy tail).place = s.place := by
  obtain ⟨ts, ending, leftover⟩ := s
  cases ts with
  | nil => exact absurd rfl some
  | cons t ts => rfl

theorem local_operator (op : String) : Local (operator op) := by
  intro tail comma s read s' answered
  have shorter := operator_shorter answered
  obtain ⟨starts, rfl, rfl⟩ := operator_ok answered
  refine ⟨⟨rfl, Nat.le_of_lt shorter⟩, ?_⟩
  have length := startsOperator_length starts
  have some : s.tokens ≠ [] := fun none => by
    rw [none] at length
    exact absurd length.1 (Nat.not_lt.mpr length.2)
  have again : startsOperator op (s.followedBy tail).tokens = true := startsChars_grows starts tail
  rw [operator_of_starts again, place_followedBy some]
  have same : (s.tokens ++ tail).drop op.length = s.tokens.drop op.length ++ tail :=
    List.drop_append_of_le_length length.2
  show Except.ok (_, s.facing ((s.tokens ++ tail).drop op.length)) = _
  rw [same]
  rfl

theorem local_operator? {op : String} (none : ',' ∉ op.toList) : Local (operator? op) :=
  alike_ahead_ite (blind_startsOperator none) (alike_ahead_const (local_operator op))
    (alike_ahead_const (alike_pure []))

/-- A parser that takes one token away and makes something of it. -/
theorem agree_take {t : Token} {ts : List Token} (tokens : s.tokens = t :: ts) (a : α) :
    Agree tail s (do advance ts; return a) (do advance (ts ++ tail); return a) :=
  agree_advance (tokens ▸ Nat.le_succ ts.length) a

theorem local_word (w : String) : Local (word w) := by
  refine local_ahead_cons (fun t ts tail comma s tokens => ?_) fun s _ => ⟨_, rfl⟩
  cases t with
  | ident text place =>
      dsimp only
      split
      · exact agree_take tokens _
      · exact agree_of_error rfl
  | _ => exact agree_of_error rfl

theorem local_word? (w : String) : Local (word? w) :=
  alike_ahead_ite (blind_startsWord w) (alike_ahead_const (alike_map (local_word w)))
    (alike_ahead_const (alike_pure none))

theorem local_name : Local name := by
  refine local_ahead_cons (fun t ts tail comma s tokens => ?_) fun s _ => ⟨_, rfl⟩
  cases t with
  | ident text place =>
      dsimp only
      split
      · exact agree_of_error rfl
      · exact agree_take tokens _
  | _ => exact agree_of_error rfl

theorem local_anyWord : Local anyWord := by
  refine local_ahead_cons (fun t ts tail comma s tokens => ?_) fun s _ => ⟨_, rfl⟩
  cases t with
  | ident text place => exact agree_take tokens _
  | _ => exact agree_of_error rfl

theorem local_string : Local string := by
  refine local_ahead_cons (fun t ts tail comma s tokens => ?_) fun s _ => ⟨_, rfl⟩
  cases t with
  | literal text place =>
      dsimp only
      split
      · exact agree_take tokens _
      · exact agree_of_error rfl
  | _ => exact agree_of_error rfl

theorem local_lifetime : Local lifetime := by
  refine local_ahead_cons (fun t ts tail comma s tokens => ?_) fun s _ => ⟨_, rfl⟩
  split
  · rename_i place text q rest same
    cases same
    exact agree_advance (by rw [tokens]; exact Nat.le_add_right rest.length 2) _
  · exact agree_of_error rfl

theorem local_literal : Local literal := by
  refine local_ahead_cons (fun t ts tail comma s tokens => ?_) fun s _ => ⟨_, rfl⟩
  split
  · rename_i text place rest same
    cases same
    exact agree_take tokens _
  · rename_i text place rest same
    cases same
    dsimp only
    split
    · exact agree_take tokens _
    · exact agree_of_error rfl
  · rename_i spacing place text q rest same
    cases same
    show Agree tail s _ (if Literal.isNumber text then _ else _)
    split
    · exact agree_advance (by rw [tokens]; exact Nat.le_add_right rest.length 2) _
    · exact agree_of_error rfl
  · exact agree_of_error rfl

theorem local_lifetime? : Local lifetime? :=
  alike_ahead_ite blind_startsLifetime (alike_ahead_const local_lifetime)
    (alike_ahead_const (alike_pure _))

theorem local_optionalWord (w : String) : Local (optionalWord w) := by
  refine alike_bind (local_word? w) fun found => ?_
  cases found <;> exact alike_pure _

theorem local_wordTree (w : String) : Local (wordTree w) :=
  alike_bind (local_word w) fun _ => alike_pure _

theorem local_operatorTrees (op : String) : Local (operatorTrees op) :=
  alike_bind (local_operator op) fun _ => alike_pure _

/-! ## Groups -/

theorem local_insideOpen (d : Delimiter) (p : Parser α) : Local (insideOpen d p) := by
  refine local_ahead_cons (fun t ts tail comma s tokens => ?_) fun s _ => ⟨_, rfl⟩
  cases t with
  | group e content opens closes =>
      dsimp only
      split
      · intro i s' answered
        obtain ⟨outer, _, got, answered⟩ := bind_ok answered
        cases got
        obtain ⟨_, _, opened, answered⟩ := bind_ok answered
        cases opened
        obtain ⟨value, inner, read, answered⟩ := bind_ok answered
        cases answered
        refine ⟨⟨rfl, tokens ▸ Nat.le_succ ts.length⟩, ?_⟩
        rw [get_bind, set_bind]
        exact bind_of_ok read
      · exact agree_of_error rfl
  | _ => exact agree_of_error rfl

theorem local_finish (i : Inside α) : Local i.finish := by
  intro tail comma s a s' answered
  cases answered
  exact ⟨⟨rfl, Nat.le_refl _⟩, rfl⟩

theorem local_inside (d : Delimiter) (p : Parser α) : Local (inside d p) :=
  alike_bind (local_insideOpen d p) fun i => alike_bind (local_finish i) fun _ => alike_pure i

theorem local_grouped (d : Delimiter) (p : Parser (List Tree)) : Local (grouped d p) :=
  alike_bind (local_inside d p) fun _ => alike_pure _

theorem local_rawGroup : Local rawGroup := by
  refine local_ahead_cons (fun t ts tail comma s tokens => ?_) fun s _ => ⟨_, rfl⟩
  cases t with
  | group d content opens closes => exact agree_take tokens _
  | _ => exact agree_of_error rfl

/-! ## What is kept as written -/

/-- The like for parsers that are told what stood ahead before, which is no shorter than what still
does. -/
def Since (p q : List Token → Parser α) : Prop :=
  ∀ tail, StartsComma tail → ∀ s before, s.tokens.length ≤ before.length →
    Agree tail s (p before) (q (before ++ tail))

theorem since_const {p q : Parser α} (alike : Alike p q) : Since (fun _ => p) fun _ => q :=
  fun tail comma s _ _ => alike tail comma s

theorem since_bind {p q : Parser α} {f h : List Token → α → Parser β} (first : Alike p q)
    (next : ∀ a, Since (fun before => f before a) fun before => h before a) :
    Since (fun before => p >>= f before) fun before => q >>= h before :=
  fun tail comma s before shorter => agree_bind (first tail comma s) fun a s' _ less =>
    next a tail comma s' before (Nat.le_trans less shorter)

theorem since_ite {c : Prop} [Decidable c] {p p' q q' : List Token → Parser α} (yes : Since p p')
    (no : Since q q') : Since (fun before => if c then p before else q before)
      fun before => if c then p' before else q' before := by
  split
  · exact yes
  · exact no

theorem since_ahead_const {p q : List Token → Parser α} (since : Since p q) :
    Since (fun before => ahead >>= fun _ => p before) fun before => ahead >>= fun _ => q before :=
  fun tail comma s before shorter => since tail comma s before shorter

theorem since_ahead_ite {b : List Token → Bool} {f f' h h' : List Token → List Token → Parser α}
    (blind : Blind b)
    (yes : Since (fun before => ahead >>= f before) fun before => ahead >>= f' before)
    (no : Since (fun before => ahead >>= h before) fun before => ahead >>= h' before) :
    Since (fun before => ahead >>= fun ts => if b ts then f before ts else h before ts)
      fun before => ahead >>= fun ts => if b ts then f' before ts else h' before ts := by
  intro tail comma s before shorter
  exact agree_ite (blind tail comma s.tokens) (yes tail comma s before shorter)
    (no tail comma s before shorter)

/-- What stands ahead now is no shorter than itself. -/
theorem alike_ahead_since {p q : List Token → Parser α} (since : Since p q) :
    Alike (ahead >>= p) (ahead >>= q) :=
  alike_ahead fun tail comma s => since tail comma s s.tokens (Nat.le_refl _)

theorem since_verbatimSince : Since verbatimSince verbatimSince := by
  intro tail comma s before shorter t s' answered
  cases answered
  refine ⟨.refl _, ?_⟩
  have taken : (before ++ tail).take ((before ++ tail).length - (s.tokens ++ tail).length)
      = before.take (before.length - s.tokens.length) := by
    have length : (before ++ tail).length - (s.tokens ++ tail).length
        = before.length - s.tokens.length := by
      rw [List.length_append, List.length_append]
      omega
    rw [length, List.take_append_of_le_length (Nat.sub_le _ _)]
  show Except.ok (Tree.node .verbatim (Tree.ofTokens (List.take _ (before ++ tail))), _) = _
  rw [← taken]
  rfl

theorem since_builtinCall : Since builtinCall builtinCall :=
  since_bind (local_word _) fun _ => since_bind (local_operator _) fun _ =>
    since_bind local_name fun _ => since_bind (local_inside _ _) fun _ => since_verbatimSince

theorem local_invocationOf (path : Tree) : Local (invocationOf path) :=
  alike_bind (local_operator _) fun _ => alike_bind local_rawGroup fun _ => alike_pure _

/-! ## Loops -/

/-- With fuel for every token ahead a loop reads the same, and with more fuel as well. -/
def LocalLoop (f : Nat → Parser α) : Prop :=
  ∀ tail, StartsComma tail → ∀ fuel fuel' s, fuel ≤ fuel' → s.tokens.length < fuel →
    Agree tail s (f fuel) (f fuel')

/-- A loop with as much fuel as there are tokens, and what follows it. -/
theorem alike_steps {f : Nat → Parser α} {h h' : α → Parser β} (loop : LocalLoop f)
    (next : ∀ a, Alike (h a) (h' a)) :
    Alike (steps >>= fun fuel => f fuel >>= h) (steps >>= fun fuel => f fuel >>= h') := by
  intro tail comma s
  have enough : s.tokens.length + 1 ≤ (s.tokens ++ tail).length + 1 := by
    rw [List.length_append]
    omega
  show Agree tail s (f (s.tokens.length + 1) >>= h) (f ((s.tokens ++ tail).length + 1) >>= h')
  exact agree_bind (loop tail comma _ _ s enough (Nat.lt_succ_self _)) fun a s' _ _ =>
    next a tail comma s'

theorem local_steps {f : Nat → Parser α} (loop : LocalLoop f) : Local (steps >>= f) := by
  intro tail comma s
  refine loop tail comma (s.tokens.length + 1) ((s.tokens ++ tail).length + 1) s ?_
    (Nat.lt_succ_self _)
  rw [List.length_append]
  omega

/-- In a loop every round reads a token. -/
theorem localLoop_of_step {f : Nat → Parser α}
    (step : ∀ tail, StartsComma tail → ∀ fuel fuel' s, s.tokens.length ≤ fuel →
      (∀ s', s'.tokens.length < s.tokens.length → Agree tail s' (f fuel) (f fuel')) →
        Agree tail s (f (fuel + 1)) (f (fuel' + 1))) : LocalLoop f := by
  intro tail comma fuel
  induction fuel with
  | zero => exact fun _ s _ none => absurd none (Nat.not_lt_zero _)
  | succ fuel ih =>
      intro fuel' s more enough
      obtain ⟨fuel', rfl⟩ := Nat.exists_eq_add_of_le' (Nat.le_trans (Nat.le_add_left 1 fuel) more)
      refine step tail comma fuel fuel' s (Nat.le_of_lt_succ enough) fun s' shorter =>
        ih fuel' s' ?_ ?_
      · omega
      · omega

theorem agree_ahead_ite {b : List Token → Bool} {f f' h h' : List Token → Parser α}
    (same : b (s.tokens ++ tail) = b s.tokens)
    (yes : Agree tail s (f s.tokens) (f' (s.tokens ++ tail)))
    (no : Agree tail s (h s.tokens) (h' (s.tokens ++ tail))) :
    Agree tail s (ahead >>= fun ts => if b ts then f ts else h ts)
      (ahead >>= fun ts => if b ts then f' ts else h' ts) := agree_ite same yes no

theorem local_separated {stop : List Token → Bool} {element : Parser Tree} {separator : String}
    (blind : Blind stop) (same : Local element) : Local (separated stop element separator) := by
  refine local_steps (localLoop_of_step fun tail comma fuel fuel' s _ again => ?_)
  refine agree_ahead_ite (blind tail comma _) (agree_pure []) ?_
  refine agree_bind (same tail comma s) fun x s' _ less => ?_
  refine agree_ahead_ite (blind tail comma _) (agree_pure [x]) ?_
  refine agree_bind (local_operator separator tail comma s') fun read s'' answered _ => ?_
  have shorter := Nat.lt_of_lt_of_le (operator_shorter answered) less
  exact agree_bind (again s'' shorter) fun more _ _ _ => agree_pure _

/-- Does a loop that asks `go` go on in front of a comma as it does at the end?  At the end it may
go on as well, if there is nothing that it can read there. -/
def Blind.Within (go : List Token → Bool) (element : Parser Tree) : Prop :=
  ∀ tail, StartsComma tail → ∀ s, go (s.tokens ++ tail) = go s.tokens ∨
    go s.tokens = true ∧ ∃ e, element s = .error e

theorem Blind.within {go : List Token → Bool} (blind : Blind go) (element : Parser Tree) :
    Blind.Within go element := fun tail comma s => .inl (blind tail comma s.tokens)

theorem localLoop_chainedWithin {go : List Token → Bool} {element : Parser Tree}
    {separator : String} (blind : Blind.Within go element) (same : Local element)
    (none : ',' ∉ separator.toList) : LocalLoop (chainedWithin go element separator) := by
  refine localLoop_of_step fun tail comma fuel fuel' s enough again => ?_
  refine agree_bind (same tail comma s) fun x s' _ less => ?_
  refine agree_bind (local_operator? none tail comma s') fun read s'' answered _ => ?_
  by_cases missing : read.isEmpty = true
  · rw [if_pos missing, if_pos missing]
    exact agree_pure [x]
  · rw [if_neg missing, if_neg missing]
    have shorter := Nat.lt_of_lt_of_le (operator?_shorter answered missing) less
    obtain asked | ⟨goes, e, failed⟩ := blind tail comma s''
    · refine agree_ahead_ite asked ?_ (agree_pure _)
      exact agree_bind (again s'' shorter) fun more _ _ _ => agree_pure _
    · obtain ⟨fuel, rfl⟩ := Nat.exists_eq_add_of_lt (Nat.lt_of_lt_of_le shorter enough)
      have fails : chainedWithin go element separator (s''.tokens.length + fuel + 1) s''
          = .error e := bind_of_error failed
      refine agree_of_error (e := e) ?_
      rw [ahead_bind, if_pos goes]
      exact bind_of_error fails

theorem local_chained {go : List Token → Bool} {element : Parser Tree} {separator : String}
    (blind : Blind.Within go element) (same : Local element) (none : ',' ∉ separator.toList) :
    Local (chained go element separator) :=
  local_steps (localLoop_chainedWithin blind same none)

/-! ## Attributes -/

/-- An attribute behind its first character, which stands at `place`. -/
theorem local_behindHash (g : Grammar) (inner : Bool) (place : Place) : Local (do
    if inner then let _ ← operator "!"
    return (← inside .bracket (attributeContent g inner place)).value) := by
  have content : Local (do
      return (← inside .bracket (attributeContent g inner place)).value) :=
    alike_bind (local_inside _ _) fun _ => alike_pure _
  exact alike_ite (alike_bind (local_operator _) fun _ => content) content

-- An attribute keeps its place, so the lemma about places does not apply: there is a token to
-- ask for the place.
theorem local_oneAttribute (g : Grammar) (inner : Bool) : Local (oneAttribute g inner) := by
  intro tail comma s
  by_cases none : s.tokens = []
  · have missing : ¬startsOperator "#" s.tokens = true := by
      rw [none]
      decide
    refine agree_of_error (e := ⟨s.place, .expected [quoted "#"], false⟩) ?_
    rw [oneAttribute, here_bind]
    exact bind_of_error (operator_of_not missing)
  · have same := alike_bind (local_operator "#") (fun _ => local_behindHash g inner s.place)
      tail comma s
    intro a s' answered
    rw [oneAttribute, here_bind] at answered ⊢
    rw [place_followedBy none]
    exact same a s' answered

theorem oneAttribute_shorter {g : Grammar} {inner : Bool} {s s' : Stream} {a : Attribute}
    (answered : oneAttribute g inner s = .ok (a, s')) : s'.tokens.length < s.tokens.length := by
  rw [oneAttribute, here_bind] at answered
  obtain ⟨read, t, hash, behind⟩ := bind_ok answered
  have rest := (local_behindHash g inner s.place).shorter behind
  exact Nat.lt_of_le_of_lt rest (operator_shorter hash)

theorem local_outerAttributes (g : Grammar) : Local (outerAttributes g) := by
  refine local_steps (localLoop_of_step fun tail comma fuel fuel' s _ again => ?_)
  refine agree_ahead_ite (blind_startsOperator (by decide) tail comma _) ?_ (agree_pure [])
  refine agree_bind (local_oneAttribute g false tail comma s) fun a s' answered _ => ?_
  exact agree_bind (again s' (oneAttribute_shorter answered)) fun more _ _ _ => agree_pure _

end

end Parser

end LogInterface
