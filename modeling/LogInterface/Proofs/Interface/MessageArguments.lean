/-
# Proofs.Interface.MessageArguments -- lists of arguments

The arguments of `logger_message` are a list with commas.  Each of them can be read by itself
(`MessageArgument.Written`), and what is read from all of them is what the slots hold that these
arguments fill: nothing is read otherwise because of its neighbours (`reads_inFront`), and nothing
that gives one slot is ever taken for another (`valueAt_answers`).  The loop over the list is
followed argument by argument (`partialMessage_round`) and then to its end
(`partialMessage_answers`).
-/
import LogInterface.Proofs.Interface.EventNumber
import LogInterface.Proofs.Interface.Slots
import LogInterface.Proofs.Parser.LocalGrammar
import LogInterface.Proofs.Token.Word

namespace LogInterface

set_option autoImplicit false

open LogInterface.Parser

/-! ## Arguments as they are written -/

/-- The tokens of a text with nothing behind them. -/
def Stream.over (tokens : List Token) : Stream := ⟨tokens, .nowhere, none⟩

@[simp] theorem Stream.over_tokens (tokens : List Token) : (Stream.over tokens).tokens = tokens :=
  rfl

/-- The tokens, and no others, are an event id, a level or a template. -/
inductive Given.Written (g : Grammar) : Given → List Token → Prop where
  | event {n : EventNumber} {ts : List Token} :
      onAll eventNumber ts .nowhere = .ok n → Given.Written g (.event n) ts
  | level {l : Level} {ts : List Token} :
      onAll (levelPath g) ts .nowhere = .ok l → Given.Written g (.level l) ts
  | message {m : StringLiteral} {ts : List Token} :
      onAll string ts .nowhere = .ok m → Given.Written g (.message m) ts

/-- An argument stands alone, or behind a name of its slot and an equals sign. -/
inductive MessageArgument.Written (g : Grammar) : MessageArgument → List Token → Prop where
  | positional {v : Given} {ts : List Token} : v.Written g ts → Written g ⟨none, v⟩ ts
  | named {v : Given} {ts : List Token} {key : Ident} {spacing : Spacing} {place : Place} :
      key.text ∈ v.keys → v.Written g ts →
        Written g ⟨some key, v⟩ (.ident key.text key.place :: .punct '=' spacing place :: ts)

/-- The parts with a comma between each two; a comma may follow the last one. -/
inductive Separated : List (List Token) → List Token → Prop where
  | nil : Separated [] []
  | last (ts : List Token) : Separated [ts] ts
  | cons {parts : List (List Token)} {rest : List Token} (ts : List Token) (spacing : Spacing)
      (place : Place) : Separated parts rest →
        Separated (ts :: parts) (ts ++ .punct ',' spacing place :: rest)

/-- An argument ends with the tokens or at a comma. -/
def EndsArgument (tail : List Token) : Prop := tail = [] ∨ StartsComma tail

/-- Reads what fills a slot. -/
def valueAt (g : Grammar) : (slot : Nat) → Parser Given
  | 0 => return .event (← eventNumber)
  | 1 => return .level (← levelPath g)
  | 2 => return .message (← string)
  | _ => failHere (.rule "too many arguments; expected `(event_id, Level, \"message\")`")

/-! ## One value -/

section

variable {α : Type} {g : Grammar} {v : Given} {ts tail : List Token}

/-- What can be read by itself can be read in front of a comma. -/
theorem over_of_local {p : Parser α} (same : Local p) {a : α}
    (read : onAll p ts .nowhere = .ok a) (ends : EndsArgument tail) :
    p (.over (ts ++ tail)) = .ok (a, .over tail) := by
  obtain ⟨⟨rest, ending, leftover⟩, answered, empty, none⟩ := onAll_ok_iff.mp read
  cases empty
  cases none
  have within (tail : List Token) (comma : StartsComma tail) :=
    same tail comma (.over ts) a _ answered
  obtain rfl : ending = .nowhere := (within _ (.comma .alone .nowhere [])).1.ending
  obtain rfl | comma := ends
  · rw [List.append_nil]
    exact answered
  · exact (within tail comma).2

theorem local_eventNumber : Local eventNumber := by
  intro tail _ s n s' answered
  obtain ⟨rest, numbered, rfl⟩ := eventNumber_ok_iff.mp answered
  have shorter : rest.length ≤ s.tokens.length := by
    obtain ⟨_, _, _, signed, -, -⟩ := numbered
    exact Nat.le_of_lt signed.length_lt
  exact ⟨⟨rfl, shorter⟩, eventNumber_ok_iff.mpr ⟨_, numbered.append tail, rfl⟩⟩

theorem local_levelPath (deeper : g.Local) : Local (levelPath g) := by
  refine alike_bind (local_path deeper false) fun path => ?_
  dsimp only
  split
  · exact alike_pure _
  · exact alike_failAt

theorem reads_inFront (deeper : g.Local) (written : v.Written g ts) (ends : EndsArgument tail) :
    valueAt g v.slot (.over (ts ++ tail)) = .ok (v, .over tail) := by
  cases written with
  | event read => exact bind_of_ok (over_of_local local_eventNumber read ends)
  | level read => exact bind_of_ok (over_of_local (local_levelPath deeper) read ends)
  | message read => exact bind_of_ok (over_of_local local_string read ends)

end

/-! ## No value is taken for another -/

/-- The slot of which the value can start with this token. -/
def startsSlot : Token → Option Nat
  | .literal text _ => if (Literal.string? text).isSome then some 2 else some 0
  | .punct c _ _ => if c = '-' then some 0 else some 1
  | .ident _ _ => some 1
  | .group _ _ _ _ => none

section

variable {g : Grammar} {v : Given} {ts tail : List Token}

theorem isDigit_of_integer? {text : String} {n : Nat} (number : Literal.integer? text = some n) :
    ∃ c cs, text.toList = c :: cs ∧ c.isDigit = true := by
  obtain ⟨w, whole, -⟩ := Option.map_eq_some_iff.mp number
  unfold Literal.whole? at whole
  cases chars : text.toList with
  | nil =>
      rw [chars] at whole
      cases whole
  | cons c cs =>
      refine ⟨c, cs, rfl, ?_⟩
      by_contra other
      rw [chars] at whole
      simp [other] at whole

/-- No string literal is a number. -/
theorem string?_of_integer? {text : String} {n : Nat} (number : Literal.integer? text = some n) :
    Literal.string? text = none := by
  obtain ⟨c, cs, chars, digit⟩ := isDigit_of_integer? number
  unfold Literal.string?
  rw [chars]
  split
  · rename_i same
    cases same
    exact absurd digit (by decide)
  · rename_i same
    cases same
    exact absurd digit (by decide)
  · rfl

theorem startsSlot_of_numbered {n : EventNumber} {rest : List Token}
    (numbered : Numbered ts n rest) : ts.head?.bind startsSlot = some 0 := by
  obtain ⟨_, _, _, signed, -, -⟩ := numbered
  cases signed with
  | number reads =>
      show (if (Literal.string? _).isSome then some 2 else some 0) = some 0
      rw [string?_of_integer? reads]
      rfl
  | minus => rfl

theorem startsSlot_of_string {s s' : Stream} {m : StringLiteral} (read : string s = .ok (m, s')) :
    s.tokens.head?.bind startsSlot = some 2 := by
  obtain ⟨rest, tokens, denotes, -⟩ := string_ok_iff.mp read
  rw [tokens]
  show (if (Literal.string? m.written).isSome then some 2 else some 0) = some 2
  rw [denotes]
  rfl

theorem startsSlot_of_anyWord {s s' : Stream} {i : Ident} (read : anyWord s = .ok (i, s')) :
    s.tokens.head?.bind startsSlot = some 1 := by
  rw [anyWord, ahead_bind] at read
  generalize s.tokens = ts at read ⊢
  split at read
  · rfl
  · cases read

theorem startsSlot_of_name {s s' : Stream} {i : Ident} (read : name s = .ok (i, s')) :
    s.tokens.head?.bind startsSlot = some 1 := by
  obtain ⟨rest, tokens, -⟩ := name_ok_iff.mp read
  rw [tokens]
  rfl

theorem startsSlot_of_pathSegment {s s' : Stream} {t : Tree} {inExpression : Bool}
    (read : pathSegment g inExpression s = .ok (t, s')) :
    s.tokens.head?.bind startsSlot = some 1 := by
  rw [pathSegment, ahead_bind] at read
  split at read
  · obtain ⟨i, _, read, -⟩ := bind_ok read
    exact startsSlot_of_anyWord read
  · rw [ahead_bind] at read
    dsimp only at read
    split at read
    · obtain ⟨i, _, read, -⟩ := bind_ok read
      exact startsSlot_of_anyWord read
    · obtain ⟨i, _, read, -⟩ := bind_ok read
      exact startsSlot_of_name read

/-- A path starts with colons or a name. -/
theorem startsSlot_of_path {s s' : Stream} {t : Tree} {inExpression : Bool}
    (read : path g inExpression s = .ok (t, s')) : s.tokens.head?.bind startsSlot = some 1 := by
  obtain ⟨children, _, read, -⟩ := bind_ok read
  obtain ⟨root, _, first, read⟩ := bind_ok read
  by_cases colons : startsOperator "::" s.tokens = true
  · obtain ⟨_, _, _, _, tokens⟩ := startsColons_ok colons
    rw [tokens]
    rfl
  · rw [operator?_of_not colons] at first
    cases first
    obtain ⟨segment, _, read, -⟩ := bind_ok read
    exact startsSlot_of_pathSegment read

theorem startsSlot_of_valueAt {slot : Nat} {s s' : Stream}
    (read : valueAt g slot s = .ok (v, s')) : s.tokens.head?.bind startsSlot = some slot := by
  match slot with
  | 0 =>
      obtain ⟨n, _, read, -⟩ := bind_ok read
      obtain ⟨rest, numbered, -⟩ := eventNumber_ok_iff.mp read
      exact startsSlot_of_numbered numbered
  | 1 =>
      obtain ⟨l, _, read, -⟩ := bind_ok read
      obtain ⟨t, _, read, -⟩ := bind_ok read
      exact startsSlot_of_path read
  | 2 =>
      obtain ⟨m, _, read, -⟩ := bind_ok read
      exact startsSlot_of_string read
  | _ + 3 => cases read

/-- What gives one slot is read for this one, and for no other. -/
theorem valueAt_answers (deeper : g.Local) (written : v.Written g ts) (ends : EndsArgument tail)
    (slot : Nat) : Answers (valueAt g slot) (.over (ts ++ tail))
      (if v.slot != slot then none else some v) (.over tail) := by
  have own := reads_inFront deeper written ends
  by_cases same : v.slot = slot
  · rw [if_neg (by simpa using same)]
    exact same ▸ own
  · rw [if_pos (by simpa using same)]
    cases read : valueAt g slot (.over (ts ++ tail)) with
    | error e => exact ⟨e, read⟩
    | ok r =>
        have starts := (startsSlot_of_valueAt own).symm.trans (startsSlot_of_valueAt read)
        exact absurd (Option.some.inj starts) same

/-! ## By position or by name -/

/-- A path ends in front of an equals sign. -/
theorem path_of_equals {text : String} {place : Place} {rest : List Token}
    (named : startsNamedArgument (.ident text place :: rest) = true) :
    ∃ t, path g false (.over (.ident text place :: rest)) = .ok (t, .over rest) := by
  obtain ⟨isName, equals⟩ : startsName (.ident text place :: rest) = true ∧
      startsOperator "=" rest = true := Bool.and_eq_true _ _ ▸ named
  have ordinary : text ∉ keywords := by simpa [startsName] using isName
  have other : ∀ word ∈ keywords, ¬startsWord word (.ident text place :: rest) = true := by
    intro word member same
    obtain rfl : text = word := by simpa [startsWord] using same
    exact ordinary member
  have noWord : ¬startsOneOf segmentWords (.ident text place :: rest) = true := by
    rw [startsOneOf, List.any_eq_true]
    rintro ⟨word, member, same⟩
    exact other word ((by decide : ∀ w ∈ segmentWords, w ∈ keywords) word member) same
  obtain ⟨spacing, q, more, rfl⟩ : ∃ spacing q more, rest = .punct '=' spacing q :: more :=
    (startsChars_singleton (by decide)).mp equals
  have first : pathSegment g false (.over (.ident text place :: .punct '=' spacing q :: more))
      = .ok (plainSegment ⟨text, place⟩, .over (.punct '=' spacing q :: more)) := by
    refine (ahead_of_not noWord).trans ((ahead_of_not (other "Self" (by decide))).trans ?_)
    refine (bind_of_ok (name_of_ordinary rfl ordinary)).trans ?_
    rfl
  have root : operator? "::" (.over (.ident text place :: .punct '=' spacing q :: more))
      = .ok ([], .over (.ident text place :: .punct '=' spacing q :: more)) :=
    operator?_of_not Bool.false_ne_true
  have children : pathChildren g false (.over (.ident text place :: .punct '=' spacing q :: more))
      = .ok ([plainSegment ⟨text, place⟩], .over (.punct '=' spacing q :: more)) :=
    (bind_of_ok root).trans ((bind_of_ok first).trans rfl)
  exact ⟨.node .path [plainSegment ⟨text, place⟩], bind_of_ok children⟩

theorem levelPath_ok {s s' : Stream} {l : Level} (read : levelPath g s = .ok (l, s')) :
    ∃ t, path g false s = .ok (t, s') := by
  obtain ⟨t, s'', whole, read⟩ := bind_ok read
  dsimp only at read
  generalize Level.ofName? (lastName t) = found at read
  cases found with
  | none => cases read
  | some l =>
      cases read
      exact ⟨t, whole⟩

/-- An argument by position does not look like one by name. -/
theorem not_startsNamedArgument (deeper : g.Local) (written : v.Written g ts)
    (ends : EndsArgument tail) : startsNamedArgument (ts ++ tail) = false := by
  have own := startsSlot_of_valueAt (reads_inFront deeper written (.inl rfl))
  rw [List.append_nil] at own
  by_contra named
  rw [Bool.not_eq_false] at named
  match ts, own with
  | .ident text place :: rest, own =>
      cases written with
      | event | message => cases own
      | level read =>
          obtain ⟨isName, equals⟩ : startsName (.ident text place :: rest) = true ∧
              startsOperator "=" (rest ++ tail) = true := Bool.and_eq_true _ _ ▸ named
          have whole := over_of_local (local_levelPath deeper) read (.inl rfl)
          rw [List.append_nil] at whole
          obtain ⟨t, whole⟩ := levelPath_ok whole
          obtain ⟨spacing, q, more, tokens⟩ :
              ∃ spacing q more, rest ++ tail = .punct '=' spacing q :: more :=
            (startsChars_singleton (by decide)).mp equals
          cases rest with
          | nil =>
              obtain rfl | ⟨_, _, _⟩ := ends
              · cases tokens
              · cases tokens
          | cons u rest =>
              cases tokens
              obtain ⟨t', stops⟩ := path_of_equals (g := g)
                (Bool.and_eq_true _ _ ▸ ⟨isName, rfl⟩ :
                  startsNamedArgument (.ident text place :: .punct '=' spacing q :: rest) = true)
              rw [stops] at whole
              cases whole
  | .literal .. :: _, _ => cases named
  | .punct .. :: _, _ => cases named
  | .group .. :: _, own => cases own

theorem ordinary_of_keys {text : String} (keyed : text ∈ v.keys) : text ∉ keywords := by
  have ordinary : ∀ key ∈ ["id", "event_id", "level", "message"], key ∉ keywords := by decide
  have sub : v.keys ⊆ ["id", "event_id", "level", "message"] := by cases v <;> simp [Given.keys]
  exact ordinary text (sub keyed)

theorem startsNamedArgument_of_written (deeper : g.Local) {a : MessageArgument}
    (written : a.Written g ts) (ends : EndsArgument tail) :
    startsNamedArgument (ts ++ tail) = a.key.isSome := by
  cases written with
  | positional written => exact not_startsNamedArgument deeper written ends
  | named keyed _ =>
      have ordinary := ordinary_of_keys keyed
      show (!keywords.contains _ && true) = true
      simpa using ordinary

/-! ## One argument -/

theorem answers_put {α : Type} {read : Parser α} {make : α → Given} {f : α → PartialMessage}
    {p : PartialMessage} (puts : ∀ a, f a = p.put (make a)) {s s' : Stream} {found : Option Given}
    (answers : Answers (do return make (← read)) s found s') :
    Answers (do return f (← read)) s (found.map p.put) s' := by
  cases answered : read s with
  | error e =>
      obtain rfl := answers.of_error (bind_of_error answered)
      exact ⟨e, bind_of_error answered⟩
  | ok r =>
      obtain ⟨rfl, same⟩ := answers.of_ok (bind_of_ok answered)
      show _ = Except.ok (p.put (make r.1), s')
      rw [bind_of_ok answered, puts, same]
      rfl

theorem positionalMessage_answers {p : PartialMessage} {index : Nat} {s s' : Stream}
    {found : Option Given} (answers : Answers (valueAt g index) s found s') :
    Answers (positionalMessage g index p) s (found.map p.put) s' := by
  match index with
  | 0 => exact answers_put (fun _ => rfl) answers
  | 1 => exact answers_put (fun _ => rfl) answers
  | 2 => exact answers_put (fun _ => rfl) answers
  | _ + 3 =>
      obtain rfl := answers.of_error (failHere_apply _)
      exact ⟨_, failHere_apply _⟩

theorem onlyOnce_answers {given : Bool} {key : Ident} {q : PartialMessage} {s : Stream} :
    Answers (do onlyOnce given key; return q) s (if given then none else some q) s := by
  cases given with
  | true => exact ⟨_, rfl⟩
  | false => exact rfl

theorem namedMessage_answers (deeper : g.Local) (written : v.Written g ts)
    (ends : EndsArgument tail) {key : Ident} (keyed : key.text ∈ v.keys) (spacing : Spacing)
    (place : Place) (p : PartialMessage) :
    Answers (namedMessage g p)
      (.over (.ident key.text key.place :: .punct '=' spacing place :: (ts ++ tail)))
      (if p.holds v then none else some (p.put v)) (.over tail) := by
  refine .after (name_of_ordinary rfl (ordinary_of_keys keyed)) ?_
  refine .after (operator_single rfl (by decide) rfl) ?_
  cases written with
  | event read =>
      have chosen : (key.text == "id" || key.text == "event_id") = true := by
        simpa [Given.keys] using keyed
      dsimp only
      rw [if_pos chosen]
      exact .after (over_of_local local_eventNumber read ends) onlyOnce_answers
  | level read =>
      have text : key.text = "level" := by simpa [Given.keys] using keyed
      dsimp only
      rw [if_neg (by rw [text]; decide), if_pos (by rw [text]; decide)]
      exact .after (over_of_local (local_levelPath deeper) read ends) onlyOnce_answers
  | message read =>
      have text : key.text = "message" := by simpa [Given.keys] using keyed
      dsimp only
      rw [if_neg (by rw [text]; decide), if_neg (by rw [text]; decide),
        if_pos (by rw [text]; decide)]
      exact .after (over_of_local local_string read ends) onlyOnce_answers

/-- What is read of one argument is what it fills. -/
theorem argument_answers (deeper : g.Local) {a : MessageArgument} (written : a.Written g ts)
    (ends : EndsArgument tail) (p : PartialMessage) (index : Nat) (named : Bool) :
    Answers (if a.key.isSome then namedMessage g p
        else if named then failHere (.rule "positional arguments must come before named arguments")
        else positionalMessage g index p) (.over (ts ++ tail)) (p.take index named a)
      (.over tail) := by
  cases written with
  | positional written =>
      cases named with
      | true => exact ⟨_, failHere_apply _⟩
      | false =>
          rename_i v
          have answers := positionalMessage_answers (p := p)
            (valueAt_answers deeper written ends index)
          have same : ((if v.slot != index then none else some v : Option Given).map p.put)
              = p.take index false ⟨none, v⟩ := apply_ite _ _ _ _
          exact same ▸ answers
  | named keyed written => exact namedMessage_answers deeper written ends keyed _ _ p

/-! ## The list -/

theorem Given.Written.ne_nil (deeper : g.Local) (written : v.Written g ts) : ts ≠ [] := by
  rintro rfl
  have none := startsSlot_of_valueAt (reads_inFront deeper written (.inl rfl))
  cases none

theorem MessageArgument.Written.ne_nil (deeper : g.Local) {a : MessageArgument}
    (written : a.Written g ts) : ts ≠ [] := by
  cases written with
  | positional written => exact written.ne_nil deeper
  | named => exact List.cons_ne_nil _ _

theorem comma_over (spacing : Spacing) (place : Place) (rest : List Token) :
    operator "," (.over (.punct ',' spacing place :: rest))
      = .ok ([.punct ',' .alone place], .over rest) :=
  operator_single rfl (by decide) rfl

/-- One round of the loop: an argument, and what is read behind it. -/
theorem partialMessage_round (deeper : g.Local) {a : MessageArgument} (written : a.Written g ts)
    (ends : EndsArgument tail) {p : PartialMessage} {fuel index : Nat} {named : Bool}
    {next : PartialMessage → Option PartialMessage}
    (rest : ∀ q, Answers (do
      if (← ahead).isEmpty then return q
      let _ ← operator ","
      partialMessage g fuel (if a.key.isSome then index else index + 1) (named || a.key.isSome) q)
        (.over tail) (next q) (.over [])) :
    Answers (partialMessage g (fuel + 1) index named p) (.over (ts ++ tail))
      ((p.take index named a).bind next) (.over []) := by
  have byName := startsNamedArgument_of_written deeper written ends
  have one := (argument_answers deeper written ends p index named).bind fun q _ => rest q
  have some : ¬(ts ++ tail).isEmpty = true := by
    simp only [List.isEmpty_iff, List.append_eq_nil_iff, written.ne_nil deeper, false_and,
      not_false_eq_true]
  refine .of_eq (ahead_of_not some) ?_
  dsimp only
  rw [Stream.over_tokens, byName]
  generalize a.key.isSome = given at one ⊢
  cases given <;> cases named <;> exact one

theorem partialMessage_answers (deeper : g.Local) {args : List MessageArgument}
    {parts : List (List Token)} {tokens : List Token} (separated : Separated parts tokens)
    (written : List.Forall₂ (MessageArgument.Written g) args parts) {fuel index : Nat}
    {named : Bool} {p : PartialMessage} (enough : args.length < fuel) :
    Answers (partialMessage g fuel index named p) (.over tokens) (filled index named p args)
      (.over []) := by
  induction separated generalizing args fuel index named p with
  | nil =>
      cases written
      obtain ⟨fuel, rfl⟩ := Nat.exists_eq_add_of_lt enough
      exact rfl
  | last ts =>
      match args, written with
      | [a], .cons first .nil =>
          obtain ⟨fuel, rfl⟩ := Nat.exists_eq_add_of_lt enough
          have atEnd (q : PartialMessage) : Answers (do
              if (← ahead).isEmpty then return q
              let _ ← operator ","
              partialMessage g (0 + 1 + fuel) (if a.key.isSome then index else index + 1)
                (named || a.key.isSome) q) (.over []) (some q) (.over []) := rfl
          have whole := partialMessage_round deeper first (.inl rfl) atEnd (p := p)
          rw [List.append_nil] at whole
          exact whole
  | cons ts spacing place separated ih =>
      match args, written with
      | a :: args, .cons first written =>
          obtain ⟨fuel, rfl⟩ := Nat.exists_eq_add_of_lt enough
          refine partialMessage_round deeper first (.inr (.comma spacing place _)) fun q => ?_
          refine .of_eq (ahead_of_not Bool.false_ne_true) ?_
          refine .after (comma_over spacing place _) (ih written ?_)
          rw [List.length_cons]
          omega

end

/-! ## All of it -/

/-- The slots, if all of them are filled. -/
def PartialMessage.complete? (p : PartialMessage) : Option MessageArguments := do
  let event ← p.event
  let level ← p.level
  let message ← p.message
  return ⟨event, level, message⟩

theorem PartialMessage.complete?_eq_some {p : PartialMessage} {r : MessageArguments} :
    p.complete? = some r ↔ p = r.complete := by
  obtain ⟨event, level, message⟩ := p
  obtain ⟨n, l, m⟩ := r
  cases event <;> cases level <;> cases message <;>
    simp [complete?, MessageArguments.complete]

theorem required_answers {α : Type} (slot : Option α) (missing : String) (s : Stream) :
    Answers (required slot missing) s slot s := by
  cases slot with
  | none => exact ⟨_, failHere_apply _⟩
  | some a => exact rfl

theorem onAll_answers {α : Type} {p : Parser α} {tokens : List Token} {found : Option α}
    (answers : Answers p (.over tokens) found (.over [])) :
    (∀ a, onAll p tokens .nowhere = .ok a ↔ found = some a) ∧
      ((∃ e, onAll p tokens .nowhere = .error e) ↔ found = none) := by
  cases found with
  | none =>
      obtain ⟨e, failed⟩ := answers
      have refused : onAll p tokens .nowhere = .error e := by
        show (p (.over tokens) >>= _) = _
        rw [failed]
        rfl
      rw [refused]
      exact ⟨fun a => iff_of_false nofun nofun, iff_of_true ⟨e, rfl⟩ rfl⟩
  | some b =>
      have read : onAll p tokens .nowhere = .ok b := by
        show (p (.over tokens) >>= _) = _
        rw [show p (.over tokens) = .ok (b, .over []) from answers]
        rfl
      rw [read]
      exact ⟨fun a => by rw [Except.ok.injEq, Option.some.injEq],
        iff_of_false (fun failed => nomatch failed) nofun⟩

section

variable {args : List MessageArgument} {parts : List (List Token)} {tokens : List Token}

/-- There are no more arguments than tokens. -/
theorem Separated.length_lt {α : Type} {related : α → List Token → Prop} {args : List α}
    (separated : Separated parts tokens) (written : List.Forall₂ related args parts)
    (filled : ∀ a ts, related a ts → ts ≠ []) : args.length < tokens.length + 1 := by
  induction separated generalizing args with
  | nil =>
      cases written
      exact Nat.lt_succ_self 0
  | last ts =>
      match args, written with
      | [a], .cons first .nil => exact Nat.succ_lt_succ (List.length_pos_iff.mpr (filled a ts first))
  | cons ts spacing place _ ih =>
      match args, written with
      | a :: args, .cons _ written =>
          have rest := ih written
          rw [List.length_cons, List.length_append, List.length_cons]
          omega

theorem messageArguments_answers {g : Grammar} (deeper : g.Local)
    (separated : Separated parts tokens)
    (written : List.Forall₂ (MessageArgument.Written g) args parts) :
    Answers (messageArguments g) (.over tokens)
      ((filled 0 false {} args).bind PartialMessage.complete?) (.over []) := by
  have enough := separated.length_lt written fun _ _ one => one.ne_nil deeper
  refine .of_eq steps_bind ?_
  refine (partialMessage_answers deeper separated written enough).bind fun p _ => ?_
  refine (required_answers p.event _ _).bind fun event _ => ?_
  refine (required_answers p.level _ _).bind fun level _ => ?_
  exact (required_answers p.message _ _).bind fun message _ => rfl

/-- What the arguments of `logger_message` are read as.  Whatever event id, level and template there
are, the first few of them can stand by position and all others by name, in any order; a comma may
follow the last one.  All these lists are read as the same arguments, and every other list of
arguments is refused. -/
theorem message_arguments_exact (separated : Separated parts tokens)
    (written : List.Forall₂ (MessageArgument.Written (.ofTokens false tokens)) args parts) :
    (∀ r, MessageArguments.ofTokens tokens = .ok r ↔ Arranged args r) ∧
      ((∃ e, MessageArguments.ofTokens tokens = .error e) ↔ ¬∃ r, Arranged args r) := by
  have deeper := Grammar.ofTokens_local false tokens
  have found (r : MessageArguments) :
      (filled 0 false {} args).bind PartialMessage.complete? = some r ↔ Arranged args r := by
    rw [Option.bind_eq_some_iff, ← filled_iff_arranged]
    constructor
    · rintro ⟨p, all, whole⟩
      rw [← PartialMessage.complete?_eq_some.mp whole]
      exact all
    · exact fun all => ⟨_, all, PartialMessage.complete?_eq_some.mpr rfl⟩
  obtain ⟨answered, failed⟩ := onAll_answers (messageArguments_answers deeper separated written)
  refine ⟨fun r => (answered r).trans (found r), failed.trans ?_⟩
  rw [Option.eq_none_iff_forall_ne_some, not_exists]
  exact forall_congr' fun r => not_congr (found r)

end

/-- The event id by position, the others by name and not in order, and a comma at the end. -/
theorem message_arguments_exact_mixed :
    ∃ tokens r, Token.ofSource "-7, message = \"hi\", level = log::Warning," = .ok tokens ∧
      MessageArguments.ofTokens tokens = .ok r ∧
        r.event.value = -7 ∧ r.level = .warning ∧ r.message.value = "hi" := by
  let number : List Token := [.punct '-' .alone ⟨1, 0⟩, .literal "7" ⟨1, 1⟩]
  let text : List Token := [.literal "\"hi\"" ⟨1, 14⟩]
  let path : List Token := [.ident "log" ⟨1, 28⟩, .punct ':' .joint ⟨1, 31⟩,
    .punct ':' .alone ⟨1, 32⟩, .ident "Warning" ⟨1, 33⟩]
  let r : MessageArguments := ⟨⟨-7, ⟨1, 1⟩⟩, .warning, ⟨"\"hi\"", "hi", ⟨1, 14⟩⟩⟩
  let byName (key : String) (place equals : Place) (value : List Token) : List Token :=
    .ident key place :: .punct '=' .alone equals :: value
  let parts : List (List Token) :=
    [number, byName "message" ⟨1, 4⟩ ⟨1, 12⟩ text, byName "level" ⟨1, 20⟩ ⟨1, 26⟩ path]
  let named : List MessageArgument :=
    [⟨some ⟨"message", ⟨1, 4⟩⟩, .message r.message⟩, ⟨some ⟨"level", ⟨1, 20⟩⟩, .level r.level⟩]
  have separated : Separated parts _ :=
    .cons _ .alone ⟨1, 2⟩ (.cons _ .alone ⟨1, 18⟩ (.cons _ .alone ⟨1, 40⟩ .nil))
  have written (g : Grammar) :
      List.Forall₂ (MessageArgument.Written g) (⟨none, .event r.event⟩ :: named) parts :=
    .cons (.positional (.event rfl)) (.cons (.named (by decide) (.message rfl))
      (.cons (.named (by decide) (.level rfl)) .nil))
  have arranged : Arranged (⟨none, .event r.event⟩ :: named) r :=
    ⟨[⟨none, .event r.event⟩], named, rfl, by simp, by simp [named], ⟨_, rfl⟩,
      .cons _ (.swap _ _ _)⟩
  exact ⟨_, r, by rfl, ((message_arguments_exact separated (written _)).1 r).mpr arranged,
    rfl, rfl, rfl⟩

end LogInterface
