/-
# Proofs.Parser.Reads -- tokens that are read

`p.Reads ts rest` says that the parser `p` reads the tokens `ts` where `rest` follows them, and
goes on there.  What it answers is not tracked: a text that should be accepted has to be shown not
to be refused, and nothing more.  Where a later step looks at an answer, `ReadsAs` says what it
needs to know of it.

A parser that was made with `do` reads its tokens piece by piece, so a proof follows its text:
`ReadsAs.bind` gives the first step the first piece, and `ReadsAs.skip` is for a step that finds
nothing to read.  A decision about the tokens ahead is settled by the first of them, mostly by
evaluation, whatever `rest` is.
-/
import LogInterface.Parser.Grammar
import LogInterface.Proofs.Parser.Run
import LogInterface.Token.Code

namespace LogInterface.Parser

set_option autoImplicit false

variable {α β : Type} {ts us rest : List Token} {holds : α → Prop} {holds' : β → Prop}

/-- The parser reads `ts` where `rest` follows, and its answer `holds`. -/
def ReadsAs (p : Parser α) (ts rest : List Token) (holds : α → Prop) : Prop :=
  ∀ s : Stream, s.tokens = ts ++ rest → ∃ a, holds a ∧ p s = .ok (a, s.facing rest)

/-- The parser reads `ts` where `rest` follows. -/
abbrev Reads (p : Parser α) (ts rest : List Token) : Prop := p.ReadsAs ts rest fun _ => True

/-! ## One piece after another -/

namespace ReadsAs

theorem reads {p : Parser α} (read : p.ReadsAs ts rest holds) : p.Reads ts rest :=
  fun s tokens =>
    have ⟨a, _, same⟩ := read s tokens
    ⟨a, trivial, same⟩

theorem weaken {p : Parser α} {holds'' : α → Prop} (read : p.ReadsAs ts rest holds)
    (weaker : ∀ a, holds a → holds'' a) : p.ReadsAs ts rest holds'' :=
  fun s tokens =>
    have ⟨a, answer, same⟩ := read s tokens
    ⟨a, weaker a answer, same⟩

theorem pure {a : α} (answer : holds a) : ReadsAs (Pure.pure a) [] rest holds :=
  fun s tokens => ⟨a, answer, by rw [pure_apply, ← show s.tokens = rest from tokens]; rfl⟩

theorem bind {p : Parser α} {f : α → Parser β} {t : List Token}
    (first : p.ReadsAs t (us ++ rest) holds)
    (next : ∀ a, holds a → (f a).ReadsAs us rest holds') :
    (p >>= f).ReadsAs (t ++ us) rest holds' := by
  intro s tokens
  rw [List.append_assoc] at tokens
  obtain ⟨a, answer, read⟩ := first s tokens
  obtain ⟨b, answer', read'⟩ := next a answer (s.facing (us ++ rest)) rfl
  exact ⟨b, answer', (bind_of_ok read).trans read'⟩

/-- The steps behind the first one do not look at its answer. -/
theorem next {p : Parser α} {f : α → Parser β} {t : List Token} (first : p.Reads t (us ++ rest))
    (others : ∀ a, (f a).ReadsAs us rest holds') : (p >>= f).ReadsAs (t ++ us) rest holds' :=
  bind first fun a _ => others a

/-- The first step reads nothing. -/
theorem skip {p : Parser α} {f : α → Parser β} (first : p.ReadsAs [] (us ++ rest) holds)
    (next : ∀ a, holds a → (f a).ReadsAs us rest holds') : (p >>= f).ReadsAs us rest holds' :=
  bind first next

/-- The first step has its answer without reading. -/
theorem given {f : α → Parser β} {a : α} (others : (f a).ReadsAs us rest holds') :
    (Pure.pure a >>= f).ReadsAs us rest holds' :=
  others

/-- The first step reads everything. -/
theorem last {p : Parser α} {f : α → Parser β} (first : p.ReadsAs ts rest holds)
    (next : ∀ a, holds a → (f a).ReadsAs [] rest holds') : (p >>= f).ReadsAs ts rest holds' :=
  List.append_nil ts ▸ bind first next

/-- Nothing is read behind what was read. -/
theorem answer {p : Parser α} {f : α → β} (first : p.ReadsAs ts rest holds)
    (good : ∀ a, holds a → holds' (f a)) :
    ReadsAs (p >>= fun a => Pure.pure (f a)) ts rest holds' :=
  last first fun a answer => pure (good a answer)

theorem done {p : Parser α} {f : α → β} (first : p.ReadsAs ts rest holds) :
    Reads (p >>= fun a => Pure.pure (f a)) ts rest :=
  first.answer fun _ _ => trivial

/-! ## Decisions -/

theorem ahead {f : List Token → Parser β} (next : (f (ts ++ rest)).ReadsAs ts rest holds') :
    (Parser.ahead >>= f).ReadsAs ts rest holds' := by
  intro s tokens
  rw [ahead_bind, tokens]
  exact next s tokens

theorem here {f : Place → Parser β} (next : ∀ place, (f place).ReadsAs ts rest holds') :
    (Parser.here >>= f).ReadsAs ts rest holds' :=
  fun s tokens => next s.place s tokens

theorem steps {f : Nat → Parser β} (next : (f ((ts ++ rest).length + 1)).ReadsAs ts rest holds') :
    (Parser.steps >>= f).ReadsAs ts rest holds' := by
  intro s tokens
  rw [steps_bind, tokens]
  exact next s tokens

/-- The tokens that were read are put back. -/
theorem back {f : Unit → Parser β} {t : List Token}
    (next : (f ()).ReadsAs (t ++ us) rest holds') :
    (advance (t ++ us ++ rest) >>= f).ReadsAs us rest holds' :=
  fun s _ => next (s.facing (t ++ us ++ rest)) rfl

theorem pos {b : Bool} {p q : Parser α} (yes : b = true) (read : p.ReadsAs ts rest holds) :
    ReadsAs (if b then p else q) ts rest holds := by
  rwa [if_pos yes]

theorem either {b : Bool} {p q : Parser α} (yes : p.ReadsAs ts rest holds)
    (no : q.ReadsAs ts rest holds) : ReadsAs (if b then p else q) ts rest holds := by
  cases b with
  | true => exact yes
  | false => exact no

theorem neg {b : Bool} {p q : Parser α} (no : b = false) (read : q.ReadsAs ts rest holds) :
    ReadsAs (if b then p else q) ts rest holds := by
  rwa [if_neg (Bool.eq_false_iff.mp no)]

end ReadsAs

/-! ## Failing -/

/-- The parser fails in front of these tokens. -/
def Refuses (p : Parser α) (ts : List Token) : Prop :=
  ∀ s : Stream, s.tokens = ts → ∃ e, p s = .error e

theorem Refuses.after {p : Parser α} {f : α → Parser β} {t : List Token}
    (first : p.ReadsAs t us holds) (next : ∀ a, holds a → Refuses (f a) us) :
    Refuses (p >>= f) (t ++ us) := by
  intro s tokens
  obtain ⟨a, answer, read⟩ := first s tokens
  obtain ⟨e, failed⟩ := next a answer (s.facing us) rfl
  exact ⟨e, (bind_of_ok read).trans failed⟩

theorem Refuses.first {p : Parser α} {f : α → Parser β} (fails : Refuses p ts) :
    Refuses (p >>= f) ts := by
  intro s tokens
  obtain ⟨e, failed⟩ := fails s tokens
  exact ⟨e, bind_of_error failed⟩

theorem Refuses.given {f : α → Parser β} {a : α} (fails : Refuses (f a) ts) :
    Refuses (Pure.pure a >>= f) ts :=
  fails

theorem Refuses.here {f : Place → Parser β} (fails : ∀ place, Refuses (f place) ts) :
    Refuses (Parser.here >>= f) ts :=
  fun s tokens => fails s.place s tokens

theorem reads_attempt {p : Parser α} (read : p.ReadsAs ts rest holds) :
    (attempt p).ReadsAs ts rest fun found => ∃ a, found = some a ∧ holds a := by
  intro s tokens
  obtain ⟨a, answer, read⟩ := read s tokens
  refine ⟨some a, ⟨a, rfl, answer⟩, ?_⟩
  rw [attempt, read]

theorem skips_attempt {p : Parser α} (fails : Refuses p rest) :
    (attempt p).ReadsAs [] rest (· = none) := by
  rintro s (rfl : s.tokens = rest)
  obtain ⟨e, failed⟩ := fails s rfl
  refine ⟨none, rfl, ?_⟩
  rw [attempt, failed]
  rfl

/-! ## Words -/

theorem reads_word (w : String) (place : Place) : (word w).Reads [.ident w place] rest := by
  intro s tokens
  refine ⟨place, trivial, ?_⟩
  rw [word, ahead_bind, show s.tokens = .ident w place :: rest from tokens]
  exact congrFun (if_pos (beq_self_eq_true w)) s

theorem refuses_word {w : String} (other : startsWord w ts = false) : Refuses (word w) ts := by
  rintro s rfl
  rw [word, ahead_bind]
  generalize s.tokens = ts at other
  cases ts with
  | nil => exact ⟨_, rfl⟩
  | cons t ts =>
      cases t with
      | ident text place => exact ⟨_, congrFun (if_neg (Bool.eq_false_iff.mp other)) s⟩
      | _ => exact ⟨_, rfl⟩

theorem reads_wordTree (w : String) (place : Place) :
    (wordTree w).Reads [.ident w place] rest :=
  (reads_word w place).done

theorem reads_word? (w : String) (place : Place) :
    (word? w).ReadsAs [.ident w place] rest (·.isSome = true) :=
  fun _ tokens => ⟨some place, rfl, word?_of_word tokens⟩

theorem skips_word? {w : String} (other : startsWord w rest = false) :
    (word? w).ReadsAs [] rest (· = none) := by
  rintro s (rfl : s.tokens = rest)
  exact ⟨none, rfl, word?_of_not (Bool.eq_false_iff.mp other)⟩

theorem reads_optionalWord (w : String) (place : Place) :
    (optionalWord w).Reads [.ident w place] rest :=
  (reads_word? w place).last fun a _ => by cases a <;> exact .pure trivial

theorem skips_optionalWord {w : String} (other : startsWord w rest = false) :
    (optionalWord w).ReadsAs [] rest (·.isAbsent = true) :=
  (skips_word? other).last fun _ none => by
    rw [none]
    exact .pure rfl

theorem skips_lifetime? (other : startsLifetime rest = false) :
    lifetime?.ReadsAs [] rest (·.isAbsent = true) :=
  .ahead (.neg other (.pure rfl))

theorem reads_name {i : Ident} (ordinary : i.text ∉ keywords) :
    name.ReadsAs [i.token] rest (· = i) :=
  fun _ tokens => ⟨i, rfl, name_of_ordinary tokens ordinary⟩

theorem reads_anyWord (i : Ident) : anyWord.ReadsAs [i.token] rest (· = i) := by
  intro s tokens
  refine ⟨i, rfl, ?_⟩
  rw [anyWord, ahead_bind, show s.tokens = i.token :: rest from tokens]
  rfl

theorem reads_literal (text : String) (place : Place) :
    literal.ReadsAs [.literal text place] rest
      (· = .node .literal [.token (.literal text place)]) := by
  intro s tokens
  refine ⟨_, rfl, ?_⟩
  rw [literal, ahead_bind, show s.tokens = .literal text place :: rest from tokens]
  rfl

/-! ## Operators -/

section

variable {op : String}

theorem reads_operator (starts : startsOperator op (ts ++ rest) = true)
    (length : ts.length = op.length) : (operator op).Reads ts rest := by
  intro s tokens
  refine ⟨Token.operatorAt s.place op.toList, trivial, ?_⟩
  rw [operator_of_starts (tokens ▸ starts), tokens, ← length, List.drop_left]

theorem reads_operatorTrees (starts : startsOperator op (ts ++ rest) = true)
    (length : ts.length = op.length) : (operatorTrees op).Reads ts rest :=
  (reads_operator starts length).done

theorem reads_operator? (starts : startsOperator op (ts ++ rest) = true)
    (length : ts.length = op.length) (some : op.toList.isEmpty = false) :
    (operator? op).ReadsAs ts rest (·.isEmpty = false) := by
  intro s tokens
  refine ⟨Token.operatorAt s.place op.toList, ?filled, ?same⟩
  case filled =>
    cases spelled : op.toList with
    | nil => rw [spelled] at some; cases some
    | cons c cs => cases cs <;> rfl
  case same => rw [operator?_of_starts (tokens ▸ starts), tokens, ← length, List.drop_left]

theorem skips_operator? (other : startsOperator op rest = false) :
    (operator? op).ReadsAs [] rest (· = []) := by
  rintro s (rfl : s.tokens = rest)
  exact ⟨[], rfl, operator?_of_not (Bool.eq_false_iff.mp other)⟩

theorem reads_optionalOperator (starts : startsOperator op (ts ++ rest) = true)
    (length : ts.length = op.length) (some : op.toList.isEmpty = false) :
    (optionalOperator op).ReadsAs ts rest fun t => ∃ x xs, t = .node .list (x :: xs) :=
  (reads_operator? starts length some).answer fun a filled => by
    cases a with
    | nil => cases filled
    | cons x xs => exact ⟨_, _, rfl⟩

theorem skips_optionalOperator (other : startsOperator op rest = false) :
    (optionalOperator op).ReadsAs [] rest (· = .node .list []) :=
  (skips_operator? other).answer fun a none => by rw [none]; rfl

end

/-! ## Groups -/

section

variable {p : Parser α} {d : Delimiter} {opens closes : Place}

/-- What is inside a group is read to its end. -/
theorem reads_insideOpen (content : p.ReadsAs ts [] holds) :
    (insideOpen d p).ReadsAs [.group d ts opens closes] rest
      fun i => holds i.value ∧ i.leftover = none := by
  intro s tokens
  obtain ⟨a, answer, read⟩ :=
    content { s with tokens := ts, ending := closes } (List.append_nil ts).symm
  refine ⟨⟨a, opens, closes, none⟩, ⟨answer, rfl⟩, ?_⟩
  rw [insideOpen, ahead_bind, show s.tokens = .group d ts opens closes :: rest from tokens]
  dsimp only
  rw [if_pos rfl, get_bind, set_bind, bind_of_ok read]
  rfl

theorem finishes {i : Inside α} (none : i.leftover = none) : i.finish.Reads [] rest := by
  rintro s (rfl : s.tokens = rest)
  refine ⟨(), trivial, ?_⟩
  show Except.ok ((), { s with leftover := s.leftover <|> i.leftover }) = _
  have same : (s.leftover <|> Option.none) = s.leftover := by cases s.leftover <;> rfl
  rw [none, same]
  rfl

theorem reads_inside (content : p.ReadsAs ts [] holds) :
    (inside d p).ReadsAs [.group d ts opens closes] rest fun i => holds i.value :=
  (reads_insideOpen content).last fun _ answer =>
    (finishes answer.2).last fun _ _ => .pure answer.1

theorem reads_grouped {p : Parser (List Tree)} (content : p.Reads ts []) :
    (grouped d p).Reads [.group d ts opens closes] rest :=
  (reads_inside content).done

end

/-! ## Lists -/

/-- Behind a member nothing follows, or a comma and the others. -/
theorem commaTokens_cons (trailing : Bool) (x : List Token) (xs : List (List Token)) :
    ∃ more, commaTokens trailing (x :: xs) = x ++ more ∧
      (more = [] ∧ xs = [] ∨ more = Token.operator "," ++ commaTokens trailing xs) := by
  cases xs with
  | nil => cases trailing <;> exact ⟨_, rfl, by simp [commaTokens]⟩
  | cons y ys => exact ⟨_, List.append_assoc _ _ _, .inr rfl⟩

theorem length_le_commaTokens (trailing : Bool) (xs : List (List Token)) :
    xs.length ≤ (commaTokens trailing xs).length + 1 := by
  induction xs with
  | nil => exact Nat.zero_le _
  | cons x xs ih =>
      obtain ⟨more, split, ⟨rfl, rfl⟩ | rfl⟩ := commaTokens_cons trailing x xs
      · exact Nat.le_add_left _ _
      · have comma : (Token.operator ",").length = 1 := rfl
        rw [split, List.length_append, List.length_append, List.length_cons]
        omega

theorem reads_comma : (operator ",").Reads (Token.operator ",") rest := reads_operator rfl rfl

section

variable {stop : List Token → Bool} {element : Parser Tree} (ends : List Token → Prop)

/-- Elements are read to where `stop` holds, if each of them is read wherever `ends` holds. -/
theorem reads_separatedWithin {trailing : Bool} (stops : stop rest = true) (atEnd : ends rest)
    (goesOn : ∀ us, stop (Token.operator "," ++ us) = false)
    (atComma : ∀ us, ends (Token.operator "," ++ us)) {xs : List (List Token)} {fuel : Nat}
    (each : ∀ x ∈ xs, ∀ us, stop (x ++ us) = false ∧ (ends us → element.Reads x us))
    (enough : xs.length ≤ fuel) :
    (separatedWithin stop element "," fuel).Reads (commaTokens trailing xs) rest := by
  induction xs generalizing fuel with
  | nil =>
      cases fuel with
      | zero => exact .pure trivial
      | succ fuel => exact .ahead (.pos stops (.pure trivial))
  | cons x xs ih =>
      obtain ⟨fuel, rfl⟩ := Nat.exists_eq_succ_of_ne_zero (Nat.ne_zero_of_lt enough)
      obtain ⟨first, others⟩ := List.forall_mem_cons.mp each
      obtain ⟨more, split, behind⟩ := commaTokens_cons trailing x xs
      rw [split]
      refine .ahead (.neg ?_ (.bind ((first (more ++ rest)).2 ?_) fun _ _ => .ahead ?_))
      · rw [List.append_assoc]
        exact (first _).1
      all_goals obtain ⟨rfl, -⟩ | rfl := behind
      · exact atEnd
      · exact List.append_assoc _ _ _ ▸ atComma _
      · exact .pos stops (.pure trivial)
      · refine .neg (List.append_assoc _ _ _ ▸ goesOn _) (.bind reads_comma fun _ _ => ?_)
        exact (ih others (Nat.le_of_succ_le_succ enough)).done

theorem reads_separated {trailing : Bool} (stops : stop rest = true) (atEnd : ends rest)
    (goesOn : ∀ us, stop (Token.operator "," ++ us) = false)
    (atComma : ∀ us, ends (Token.operator "," ++ us)) {xs : List (List Token)}
    (each : ∀ x ∈ xs, ∀ us, stop (x ++ us) = false ∧ (ends us → element.Reads x us)) :
    (separated stop element ",").Reads (commaTokens trailing xs) rest := by
  refine .steps (reads_separatedWithin ends stops atEnd goesOn atComma each ?_)
  have shorter := length_le_commaTokens trailing xs
  rw [List.length_append]
  omega

end

/-- Elements with commas between them are read to the end of a group. -/
theorem reads_commaSeparated {element : Parser Tree} (ends : List Token → Prop) {trailing : Bool}
    {xs : List (List Token)} (atEnd : ends []) (atComma : ∀ us, ends (Token.operator "," ++ us))
    (each : ∀ x ∈ xs, x ≠ [] ∧ ∀ us, ends us → element.Reads x us) :
    (commaSeparated element).Reads (commaTokens trailing xs) [] := by
  refine reads_separated ends rfl atEnd (fun _ => rfl) atComma fun x member us => ?_
  refine ⟨?_, (each x member).2 us⟩
  simpa using fun empty => absurd empty (each x member).1

theorem reads_manyWithin {element : Parser α} {xs : List (List Token)} {fuel : Nat}
    (each : ∀ x ∈ xs, x ≠ [] ∧ ∀ us, element.Reads x us) (enough : xs.length ≤ fuel) :
    (manyWithin element fuel).Reads xs.flatten [] := by
  induction xs generalizing fuel with
  | nil =>
      cases fuel with
      | zero => exact .pure trivial
      | succ fuel => exact .ahead (.pos rfl (.pure trivial))
  | cons x xs ih =>
      obtain ⟨fuel, rfl⟩ := Nat.exists_eq_succ_of_ne_zero (Nat.ne_zero_of_lt enough)
      obtain ⟨⟨some, first⟩, others⟩ := List.forall_mem_cons.mp each
      refine .ahead (.neg (by simpa using fun empty => absurd empty some) ?_)
      refine .bind (first _) fun _ _ => ?_
      exact (ih others (Nat.le_of_succ_le_succ enough)).done

theorem length_le_flatten {xs : List (List Token)} (filled : ∀ x ∈ xs, x ≠ []) :
    xs.length ≤ xs.flatten.length := by
  induction xs with
  | nil => exact Nat.le_refl _
  | cons x xs ih =>
      obtain ⟨some, others⟩ := List.forall_mem_cons.mp filled
      have positive := List.length_pos_iff.mpr some
      have shorter := ih others
      rw [List.flatten_cons, List.length_append, List.length_cons]
      omega

/-- Elements are read to the end, if each is read whatever follows. -/
theorem reads_many {element : Parser α} {xs : List (List Token)}
    (each : ∀ x ∈ xs, x ≠ [] ∧ ∀ us, element.Reads x us) :
    (many element).Reads xs.flatten [] := by
  refine .steps (reads_manyWithin each ?_)
  have shorter := length_le_flatten fun x member => (each x member).1
  rw [List.append_nil]
  omega

end LogInterface.Parser
