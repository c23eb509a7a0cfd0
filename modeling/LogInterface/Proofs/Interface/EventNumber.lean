/-
# Proofs.Interface.EventNumber -- which tokens are an event id

An event id is a whole number that may have a minus sign.  Two readers look for that sign: the
one for event ids, and the one for numbers that it calls.  `Signed` says what stands there, with
any number of signs, and `eventNumber_ok_iff` which of it is read as which id: up to two signs,
each of which turns the number around, and only what fits into 32 bits.

In between the number has to fit into 64 bits.  It is turned around there, which goes wrong for
the least number alone (`overflows_iff`).
-/
import LogInterface.Interface.Arguments
import LogInterface.Proofs.Parser.Run
import Mathlib.Tactic.ByContra

namespace LogInterface

open LogInterface.Parser

set_option autoImplicit false

/-! ## Signs -/

/-- The tokens start with minus signs and a whole number, in front of `rest`. -/
inductive Signed : (signs : Nat) → List Token → (magnitude : Nat) → (rest : List Token) → Prop where
  | number {text : String} {place : Place} {rest : List Token} {magnitude : Nat} :
      Literal.integer? text = some magnitude →
        Signed 0 (.literal text place :: rest) magnitude rest
  | minus {signs : Nat} {spacing : Spacing} {place : Place} {ts rest : List Token}
      {magnitude : Nat} : Signed signs ts magnitude rest →
        Signed (signs + 1) (.punct '-' spacing place :: ts) magnitude rest

/-- A number behind minus signs: each turns it around. -/
def negated : (signs : Nat) → Int → Int
  | 0, i => i
  | signs + 1, i => -negated signs i

/-- Where the number of an event id stands: a first sign is no part of it. -/
def numberPlace : List Token → Place
  | .punct '-' _ _ :: t :: _ => t.place
  | t :: _ => t.place
  | [] => .nowhere

/-- An event id is written at the front of the tokens, in front of `rest`: a number behind at most
two signs. -/
def Numbered (ts : List Token) (n : EventNumber) (rest : List Token) : Prop :=
  ∃ signs ≤ 2, ∃ magnitude, Signed signs ts magnitude rest ∧
    fitsInt (negated signs magnitude) = true ∧ n = ⟨negated signs magnitude, numberPlace ts⟩

/-- Behind a first sign a number is read that is one of 64 bits no longer when it is turned
around. -/
def Overflows (s : Stream) : Prop :=
  ∃ spacing place ts n s', s.tokens = .punct '-' spacing place :: ts ∧
    signedNumber (s.facing ts) = .ok (n, s') ∧ fitsLong (-n.value) = false

/-- What follows the number does not matter. -/
theorem Signed.append {signs magnitude : Nat} {ts rest : List Token}
    (signed : Signed signs ts magnitude rest) (more : List Token) :
    Signed signs (ts ++ more) magnitude (rest ++ more) := by
  induction signed with
  | number reads => exact .number reads
  | minus _ ih => exact .minus ih

theorem Signed.length_lt {signs magnitude : Nat} {ts rest : List Token}
    (signed : Signed signs ts magnitude rest) : rest.length < ts.length := by
  induction signed with
  | number => exact Nat.lt_succ_self _
  | minus _ ih => exact Nat.lt_succ_of_lt ih

theorem Numbered.append {n : EventNumber} {ts rest : List Token} (numbered : Numbered ts n rest)
    (more : List Token) : Numbered (ts ++ more) n (rest ++ more) := by
  obtain ⟨signs, few, magnitude, signed, fits, rfl⟩ := numbered
  have place : numberPlace (ts ++ more) = numberPlace ts := by
    cases signed with
    | number => rfl
    | minus signed => cases signed <;> rfl
  exact ⟨signs, few, magnitude, signed.append more, fits, by rw [place]⟩

theorem Signed.unique {signs signs' magnitude magnitude' : Nat} {ts rest rest' : List Token}
    (one : Signed signs ts magnitude rest) (other : Signed signs' ts magnitude' rest') :
    signs = signs' ∧ magnitude = magnitude' ∧ rest = rest' := by
  induction one generalizing signs' with
  | number reads =>
      cases other with
      | number reads' => exact ⟨rfl, Option.some.inj (reads.symm.trans reads'), rfl⟩
  | minus _ ih =>
      cases other with
      | minus other =>
          obtain ⟨rfl, rfl, rfl⟩ := ih other
          exact ⟨rfl, rfl, rfl⟩

/-! ## How large a number may be -/

theorem fitsLong_iff {i : Int} :
    fitsLong i = true ↔ -9223372036854775808 ≤ i ∧ i ≤ 9223372036854775807 := by
  rw [fitsLong, Bool.and_eq_true, decide_eq_true_iff, decide_eq_true_iff]
  rfl

theorem fitsInt_iff {i : Int} :
    fitsInt i = true ↔ -2147483648 ≤ i ∧ i ≤ 2147483647 := by
  rw [fitsInt, Bool.and_eq_true, decide_eq_true_iff, decide_eq_true_iff]
  rfl

theorem fitsLong_of_fitsInt {i : Int} (fits : fitsInt i = true) : fitsLong i = true := by
  rw [fitsInt_iff] at fits
  rw [fitsLong_iff]
  omega

/-- A number of 32 bits still has 64 bits when it is turned around. -/
theorem fitsLong_of_fitsInt_neg {i : Int} (fits : fitsInt (-i) = true) : fitsLong i = true := by
  rw [fitsInt_iff] at fits
  rw [fitsLong_iff]
  omega

/-! ## A number with a sign of its own -/

section

variable {s s' : Stream} {n : EventNumber} {signs magnitude : Nat} {rest : List Token}

/-- A number behind at most one sign is read, and refused if it does not fit into 64 bits. -/
theorem signedNumber_eq (signed : Signed signs s.tokens magnitude rest) (few : signs ≤ 1) :
    ∃ e, signedNumber s = if fitsLong (negated signs magnitude) = true then
      .ok (⟨negated signs magnitude, s.place⟩, s.facing rest) else .error e := by
  obtain ⟨ts, ending, leftover⟩ := s
  rw [signedNumber, ahead_bind]
  cases signed with
  | number reads =>
      simp only [bind_of_ok (pure_apply _), reads, advance_bind]
      exact ⟨_, ite_apply _ _ _ _⟩
  | minus signed =>
      cases signed with
      | minus => omega
      | number reads =>
          simp only [bind_of_ok (pure_apply _), reads, advance_bind]
          exact ⟨_, ite_apply _ _ _ _⟩

theorem signedNumber_of_signed (signed : Signed signs s.tokens magnitude rest)
    (few : signs ≤ 1) (fits : fitsLong (negated signs magnitude) = true) :
    signedNumber s = .ok (⟨negated signs magnitude, s.place⟩, s.facing rest) := by
  obtain ⟨e, same⟩ := signedNumber_eq signed few
  rw [same, if_pos fits]

theorem signedNumber_of_large (signed : Signed signs s.tokens magnitude rest)
    (few : signs ≤ 1) (large : ¬fitsLong (negated signs magnitude) = true) :
    ∃ e, signedNumber s = .error e := by
  obtain ⟨e, same⟩ := signedNumber_eq signed few
  exact ⟨e, same.trans (if_neg large)⟩

/-- Where no number stands behind at most one sign, none is read. -/
theorem signedNumber_of_not_signed
    (other : ∀ signs ≤ 1, ∀ magnitude rest, ¬Signed signs s.tokens magnitude rest) :
    ∃ e, signedNumber s = .error e := by
  rw [signedNumber, ahead_bind]
  generalize s.tokens = ts at other ⊢
  split
  · rename_i text place rest
    have unread : Literal.integer? text = none :=
      Option.eq_none_iff_forall_ne_some.mpr fun magnitude reads =>
        other 0 (by decide) magnitude rest (.number reads)
    simp only [bind_of_ok (pure_apply _), unread]
    exact ⟨_, rfl⟩
  · rename_i spacing place text q rest
    have unread : Literal.integer? text = none :=
      Option.eq_none_iff_forall_ne_some.mpr fun magnitude reads =>
        other 1 (by decide) magnitude rest (.minus (.number reads))
    simp only [bind_of_ok (pure_apply _), unread]
    exact ⟨_, rfl⟩
  · exact ⟨_, rfl⟩

/-- A number is read where one stands, behind at most one sign, and fits into 64 bits. -/
theorem signedNumber_ok_iff :
    signedNumber s = .ok (n, s') ↔ ∃ signs ≤ 1, ∃ magnitude rest,
      Signed signs s.tokens magnitude rest ∧ fitsLong (negated signs magnitude) = true ∧
        n = ⟨negated signs magnitude, s.place⟩ ∧ s' = s.facing rest := by
  constructor
  · intro read
    have signed : ∃ signs ≤ 1, ∃ magnitude rest, Signed signs s.tokens magnitude rest := by
      by_contra! other
      obtain ⟨e, failed⟩ := signedNumber_of_not_signed other
      rw [failed] at read
      cases read
    obtain ⟨signs, few, magnitude, rest, signed⟩ := signed
    by_cases fits : fitsLong (negated signs magnitude) = true
    · rw [signedNumber_of_signed signed few fits] at read
      cases read
      exact ⟨signs, few, magnitude, rest, signed, fits, rfl, rfl⟩
    · obtain ⟨e, failed⟩ := signedNumber_of_large signed few fits
      rw [failed] at read
      cases read
  · rintro ⟨signs, few, magnitude, rest, signed, fits, rfl, rfl⟩
    exact signedNumber_of_signed signed few fits

end

/-! ## An event id -/

/-- An id that was read, if it fits into 32 bits. -/
def checkedNumber (n : EventNumber) : Parser EventNumber :=
  if fitsInt n.value then return n
  else failAt n.place (.rule "event id must fit in an `i32`")

section

variable {s s' : Stream} {n n' : EventNumber}

theorem checkedNumber_ok_iff :
    checkedNumber n s = .ok (n', s') ↔ fitsInt n.value = true ∧ n' = n ∧ s' = s := by
  rw [checkedNumber]
  split
  · rename_i fits
    rw [pure_apply, Except.ok.injEq, Prod.mk.injEq]
    constructor
    · rintro ⟨rfl, rfl⟩
      exact ⟨fits, rfl, rfl⟩
    · rintro ⟨-, rfl, rfl⟩
      exact ⟨rfl, rfl⟩
  · rename_i out
    rw [failAt_apply]
    constructor
    · intro answered
      cases answered
    · intro checked
      exact absurd checked.1 out

/-- The first sign is read apart from the number. -/
theorem eventNumber_of_minus {spacing : Spacing} {place : Place} {ts : List Token}
    (minus : s.tokens = .punct '-' spacing place :: ts) :
    eventNumber s
      = (signedNumber >>= fun n => checkedNumber ⟨-n.value, n.place⟩) (s.facing ts) := by
  have starts : startsOperator "-" s.tokens = true := by rw [minus]; rfl
  rw [eventNumber, bind_of_ok (operator?_of_starts starts), minus]
  rfl

theorem eventNumber_of_not_minus (bare : ¬startsOperator "-" s.tokens = true) :
    eventNumber s = (signedNumber >>= checkedNumber) s := by
  rw [eventNumber, bind_of_ok (operator?_of_not bare)]
  rfl

theorem startsMinus_iff {ts : List Token} :
    startsOperator "-" ts = true ↔ ∃ spacing place rest, ts = .punct '-' spacing place :: rest :=
  startsChars_singleton (by decide)

/-- A number that no sign stands before is one token. -/
theorem Signed.literal_of_not_minus {signs magnitude : Nat} {ts rest : List Token}
    (signed : Signed signs ts magnitude rest) (bare : ¬startsOperator "-" ts = true) :
    signs = 0 ∧ ∃ text place, ts = .literal text place :: rest := by
  cases signed with
  | number => exact ⟨rfl, _, _, rfl⟩
  | minus => exact absurd (startsMinus_iff.mpr ⟨_, _, _, rfl⟩) bare

/-- An event id is read where one is written, and what is behind it is left alone. -/
theorem eventNumber_ok_iff :
    eventNumber s = .ok (n, s') ↔ ∃ rest, Numbered s.tokens n rest ∧ s' = s.facing rest := by
  by_cases minus : startsOperator "-" s.tokens = true
  · obtain ⟨spacing, place, ts, tokens⟩ := startsMinus_iff.mp minus
    rw [eventNumber_of_minus tokens, tokens]
    constructor
    · intro answered
      obtain ⟨n', t, read, checked⟩ := bind_ok answered
      obtain ⟨fits, rfl, rfl⟩ := checkedNumber_ok_iff.mp checked
      obtain ⟨signs, few, magnitude, rest, signed, -, rfl, rfl⟩ := signedNumber_ok_iff.mp read
      refine ⟨rest, ⟨signs + 1, by omega, magnitude, .minus signed, fits, ?_⟩, rfl⟩
      cases signed <;> rfl
    · rintro ⟨rest, ⟨_, few, magnitude, signed, fits, rfl⟩, rfl⟩
      cases signed with
      | minus signed =>
          rename_i signs
          have read := signedNumber_of_signed (s := s.facing ts) signed (by omega)
            (fitsLong_of_fitsInt_neg fits)
          rw [bind_of_ok read]
          refine checkedNumber_ok_iff.mpr ⟨fits, ?_, rfl⟩
          cases signed <;> rfl
  · rw [eventNumber_of_not_minus minus]
    constructor
    · intro answered
      obtain ⟨n', t, read, checked⟩ := bind_ok answered
      obtain ⟨fits, rfl, rfl⟩ := checkedNumber_ok_iff.mp checked
      obtain ⟨signs, few, magnitude, rest, signed, -, rfl, rfl⟩ := signedNumber_ok_iff.mp read
      refine ⟨rest, ⟨signs, by omega, magnitude, signed, fits, ?_⟩, rfl⟩
      obtain ⟨rfl, text, place, tokens⟩ := signed.literal_of_not_minus minus
      rw [Stream.place, tokens]
      rfl
    · rintro ⟨rest, ⟨signs, few, magnitude, signed, fits, rfl⟩, rfl⟩
      obtain ⟨rfl, text, place, tokens⟩ := signed.literal_of_not_minus minus
      have read := signedNumber_of_signed signed (by decide) (fitsLong_of_fitsInt fits)
      rw [bind_of_ok read]
      refine checkedNumber_ok_iff.mpr ⟨fits, ?_, rfl⟩
      rw [Stream.place, tokens]
      rfl

/-- Where no event id is written, none is read. -/
theorem eventNumber_error_iff :
    (∃ e, eventNumber s = .error e) ↔ ¬∃ n rest, Numbered s.tokens n rest := by
  cases read : eventNumber s with
  | error e =>
      refine iff_of_true ⟨e, rfl⟩ ?_
      rintro ⟨n, rest, numbered⟩
      rw [eventNumber_ok_iff.mpr ⟨rest, numbered, rfl⟩] at read
      cases read
  | ok r =>
      obtain ⟨rest, numbered, -⟩ := eventNumber_ok_iff.mp read
      refine iff_of_false ?_ (not_not_intro ⟨r.1, rest, numbered⟩)
      rintro ⟨e, failed⟩
      cases failed

/-- Turning a number of 64 bits around goes wrong for the least of them alone, which is read only
where it has a sign of its own. -/
theorem overflows_iff :
    Overflows s ↔ ∃ rest, Signed 2 s.tokens 9223372036854775808 rest := by
  constructor
  · rintro ⟨spacing, place, ts, n, s', tokens, read, overflows⟩
    obtain ⟨signs, few, magnitude, rest, signed, fits, rfl, rfl⟩ := signedNumber_ok_iff.mp read
    rw [fitsLong_iff] at fits
    rw [← Bool.not_eq_true, fitsLong_iff] at overflows
    rw [tokens]
    match signs, few with
    | 0, _ =>
        dsimp only [negated] at fits overflows
        omega
    | 1, _ =>
        dsimp only [negated] at fits overflows
        obtain rfl : magnitude = 9223372036854775808 := by omega
        exact ⟨rest, .minus signed⟩
  · rintro ⟨rest, signed⟩
    generalize tokens : s.tokens = ts at signed
    cases signed with
    | minus signed =>
        have read := signedNumber_of_signed (s := s.facing _) signed (by decide) (by decide)
        exact ⟨_, _, _, _, _, tokens, read, rfl⟩

end

/-- Which event ids are read.  There are at most two signs before the number, since two readers
look for one, and each of them counts; the number fits into 32 bits with all of them; nothing else
is taken for an event id.  The first sign is counted among the numbers of 64 bits, and goes wrong
for the least of them alone. -/
theorem event_numbers_exact (s : Stream) :
    (∀ n s', eventNumber s = .ok (n, s') ↔
      ∃ rest, Numbered s.tokens n rest ∧ s' = s.facing rest) ∧
    ((∃ e, eventNumber s = .error e) ↔ ¬∃ n rest, Numbered s.tokens n rest) ∧
    (Overflows s ↔ ∃ rest, Signed 2 s.tokens 9223372036854775808 rest) :=
  ⟨fun _ _ => eventNumber_ok_iff, eventNumber_error_iff, overflows_iff⟩

/-- Two signs are one too many for a number, and still `--5` is read as the event id 5; the sign
before the least number of 64 bits goes wrong. -/
theorem doubled_sign_read :
    (∃ tokens rest, Token.ofSource "--5, Debug, \"x\"" = .ok tokens ∧ Signed 2 tokens 5 rest ∧
      (∀ signs ≤ 1, ∀ magnitude rest, ¬Signed signs tokens magnitude rest) ∧
        (MessageArguments.ofTokens tokens).toOption.map (·.event.value) = some 5) ∧
    (∃ tokens, Token.ofSource "- -9223372036854775808" = .ok tokens ∧
      Overflows ⟨tokens, .nowhere, none⟩) := by
  have five : Literal.integer? "5" = some 5 := by decide +kernel
  have least : Literal.integer? "9223372036854775808" = some 9223372036854775808 := by
    decide +kernel
  refine ⟨⟨_, _, by rfl, .minus (.minus (.number five)), ?_, by decide +kernel⟩,
    _, by rfl, overflows_iff.mpr ⟨[], .minus (.minus (.number least))⟩⟩
  intro signs few magnitude rest other
  have two : signs = 2 := (other.unique (.minus (.minus (.number five)))).1
  omega

end LogInterface
