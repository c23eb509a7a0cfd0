/-
# Proofs.Text.Letter -- a change of case keeps identifiers

The lower-case form of a character of an identifier is made of such characters again,
and it can start an identifier if the character can (`lower_spec`).  Beyond ASCII this
is a fact about two tables, and it need not be looked up for every code point: a run of
capitals moves as a whole, and it either stays where it is, lands inside one range of
letters, or stands in no identifier at all (`upperRuns_move`).

The lower-case form of a capital lies behind all ASCII capitals and the underscore
(`lower_beyond`), so no lower-case form is an ASCII capital (`lower_not_isUpper`), and what
has no ASCII capitals is found again behind its ASCII capitals (`asciiUpper_inj`).
-/
import LogInterface.Text.Identifier
import LogInterface.Text.Letter

namespace LogInterface.Text

set_option autoImplicit false

/-! ## Ranges -/

theorem within_iff {ranges : List (Nat × Nat)} {n : Nat} :
    within ranges n = true ↔ ∃ s ∈ ranges, s.1 ≤ n ∧ n ≤ s.2 := by
  simp [within]

/-- Every range of letters lies beyond ASCII and holds code points of characters only. -/
theorem startRanges_valid :
    ∀ s ∈ startRanges, 0x80 ≤ s.1 ∧ (s.2 < 0xd800 ∨ 0xdfff < s.1 ∧ s.2 < 0x110000) := by
  decide +kernel

theorem toNat_ofNat {n : Nat} (valid : n.isValidChar) : (Char.ofNat n).toNat = n := by
  rw [Char.ofNat, dif_pos valid]
  exact UInt32.toNat_ofNatLT ..

theorem isIdentStart_of_range {s : Nat × Nat} (range : s ∈ startRanges) {n : Nat}
    (least : s.1 ≤ n) (most : n ≤ s.2) : isIdentStart (Char.ofNat n) = true := by
  obtain ⟨large, valid⟩ := startRanges_valid s range
  have same : (Char.ofNat n).toNat = n := toNat_ofNat (by unfold Nat.isValidChar; omega)
  rw [isIdentStart, same, if_neg (by omega)]
  exact within_iff.mpr ⟨s, range, least, most⟩

/-! ## ASCII -/

theorem isIdentStart_of_isUpper {c : Char} (upper : c.isUpper = true) :
    isIdentStart c = true := by
  have last : c.val ≤ 90 := (of_decide_eq_true upper).2
  have small : c.toNat < 0x80 :=
    Nat.lt_of_le_of_lt (UInt32.le_iff_toNat_le.mp last) (by decide)
  rw [isIdentStart, if_pos small]
  show (c.isUpper || c.isLower || c == '_') = true
  rw [upper]
  rfl

theorem isIdentContinue_of_isDigit {c : Char} (digit : c.isDigit = true) :
    isIdentContinue c = true := by
  have last : c.val ≤ 57 := of_decide_eq_true ((Bool.and_eq_true _ _).mp digit).2
  have small : c.toNat < 0x80 :=
    Nat.lt_of_le_of_lt (UInt32.le_iff_toNat_le.mp last) (by decide)
  rw [isIdentContinue, if_pos small]
  show (c.isAlpha || c.isDigit || c == '_') = true
  rw [digit, Bool.or_true]
  rfl

/-- What is known of an ASCII character and of its changes of case. -/
structure AsciiCase (c : Char) : Prop where
  letter : 0x61 ≤ c.toNat → c.toNat ≤ 0x7a → isIdentStart c = true
  capital : c.isUpper = true → isIdentStart c.toLower = true
  beyond : c.isUpper = true → 0x60 ≤ c.toLower.toNat
  start : isIdentStart c = true → isIdentStart c.toUpper = true
  part : isIdentContinue c = true → isIdentContinue c.toUpper = true
  back : c.isUpper = false → c.toUpper.toLower = c

theorem asciiCase {c : Char} (small : c.toNat < 0x80) : AsciiCase c := by
  have computed : ∀ n < 0x80,
      (0x61 ≤ (Char.ofNat n).toNat → (Char.ofNat n).toNat ≤ 0x7a →
        isIdentStart (Char.ofNat n) = true) ∧
      ((Char.ofNat n).isUpper = true → isIdentStart (Char.ofNat n).toLower = true) ∧
      ((Char.ofNat n).isUpper = true → 0x60 ≤ (Char.ofNat n).toLower.toNat) ∧
      (isIdentStart (Char.ofNat n) = true → isIdentStart (Char.ofNat n).toUpper = true) ∧
      (isIdentContinue (Char.ofNat n) = true → isIdentContinue (Char.ofNat n).toUpper = true) ∧
      ((Char.ofNat n).isUpper = false → (Char.ofNat n).toUpper.toLower = Char.ofNat n) := by
    decide +kernel
  have known := computed c.toNat small
  rw [Char.ofNat_toNat] at known
  obtain ⟨letter, capital, beyond, start, part, back⟩ := known
  exact ⟨letter, capital, beyond, start, part, back⟩

theorem toUpper_large {c : Char} (large : ¬c.toNat < 0x80) : c.toUpper = c := by
  refine dif_neg fun letter => large ?_
  exact Nat.lt_of_le_of_lt (UInt32.le_iff_toNat_le.mp letter.2) (by decide)

/-- An ASCII capital takes the place of its letter in an identifier. -/
theorem toUpper_spec (c : Char) :
    (isIdentStart c = true → isIdentStart c.toUpper = true) ∧
    (isIdentContinue c = true → isIdentContinue c.toUpper = true) := by
  by_cases small : c.toNat < 0x80
  · exact ⟨(asciiCase small).start, (asciiCase small).part⟩
  · rw [toUpper_large small]
    exact ⟨id, id⟩

/-! ## Runs of capitals -/

namespace UpperRun

/-- The code point that the run moves another one to. -/
def moved (r : UpperRun) (n : Nat) : Nat := ((n : Int) + r.shift).toNat

/-- Does the run land inside one range of letters, ASCII letters included? -/
def landsOnLetters (r : UpperRun) : Bool :=
  ((0x61, 0x7a) :: startRanges).any fun s =>
    s.1 ≤ r.moved r.run.first && r.moved r.run.last ≤ s.2

/-- Is no code point of the run in an identifier? -/
def isForeign (r : UpperRun) : Bool :=
  (startRanges ++ continueRanges).all fun s => s.2 < r.run.first || r.run.last < s.1

end UpperRun

/-- Every run of capitals beyond ASCII stays, lands on letters, or is foreign. -/
theorem upperRuns_move :
    ∀ r ∈ upperRuns, r.shift = 0 ∨ r.landsOnLetters = true ∨ r.isForeign = true := by
  -- The comparisons of natural numbers that are computed at once, not through `decide`.
  have computed : (upperRuns.all fun r =>
      r.shift == 0 ||
        (((0x61, 0x7a) :: startRanges).any fun s =>
          Nat.ble s.1 (r.moved r.run.first) && Nat.ble (r.moved r.run.last) s.2) ||
        (startRanges ++ continueRanges).all fun s =>
          Nat.blt s.2 r.run.first || Nat.blt r.run.last s.1) = true := by decide +kernel
  simpa [UpperRun.landsOnLetters, UpperRun.isForeign, Nat.blt_eq, or_assoc] using computed

/-- Every run of capitals beyond ASCII moves to characters behind the ASCII capitals and the
underscore. -/
theorem upperRuns_beyond :
    ∀ r ∈ upperRuns, 0x60 ≤ r.moved r.run.first ∧
      (r.moved r.run.last < 0xd800 ∨
        0xdfff < r.moved r.run.first ∧ r.moved r.run.last < 0x110000) := by
  have computed : (upperRuns.all fun r =>
      Nat.ble 0x60 (r.moved r.run.first) &&
        (Nat.blt (r.moved r.run.last) 0xd800 ||
          (Nat.blt 0xdfff (r.moved r.run.first) && Nat.blt (r.moved r.run.last) 0x110000)))
      = true := by decide +kernel
  simpa [Nat.blt_eq] using computed

theorem Run.bounds {r : Run} {n : Nat} (holds : r.holds n = true) : r.first ≤ n ∧ n ≤ r.last := by
  simp only [Run.holds, Bool.and_eq_true, decide_eq_true_eq] at holds
  exact holds.1

theorem isIdentStart_moved {r : UpperRun} (lands : r.landsOnLetters = true) {n : Nat}
    (holds : r.run.holds n = true) : isIdentStart (Char.ofNat (r.moved n)) = true := by
  obtain ⟨least, most⟩ := Run.bounds holds
  simp only [UpperRun.landsOnLetters, List.any_eq_true, Bool.and_eq_true, decide_eq_true_eq]
    at lands
  obtain ⟨s, range, first, last⟩ := lands
  have above : s.1 ≤ r.moved n := Nat.le_trans first (by unfold UpperRun.moved; omega)
  have below : r.moved n ≤ s.2 := Nat.le_trans (by unfold UpperRun.moved; omega) last
  rcases List.mem_cons.mp range with rfl | inTable
  · have first : 0x61 ≤ r.moved n := above
    have last : r.moved n ≤ 0x7a := below
    have same : (Char.ofNat (r.moved n)).toNat = r.moved n := toNat_ofNat (.inl (by omega))
    rw [← same] at first last
    exact (asciiCase (Nat.lt_of_le_of_lt last (by decide))).letter first last
  · exact isIdentStart_of_range inTable above below

theorem foreign_not_identContinue {r : UpperRun} (foreign : r.isForeign = true) {c : Char}
    (large : ¬c.toNat < 0x80) (holds : r.run.holds c.toNat = true) : isIdentContinue c = false := by
  obtain ⟨least, most⟩ := Run.bounds holds
  rw [UpperRun.isForeign, List.all_eq_true] at foreign
  have joined : isIdentContinue c = within (startRanges ++ continueRanges) c.toNat := by
    rw [isIdentContinue, if_neg large, within, within, within, List.any_append]
  rw [joined, Bool.eq_false_iff]
  intro inside
  obtain ⟨s, range, bounds⟩ := within_iff.mp inside
  have apart := foreign s range
  simp only [Bool.or_eq_true, decide_eq_true_eq] at apart
  omega

/-- A capital beyond ASCII moves to itself or to a letter, if it stands in an identifier
at all. -/
theorem moved_spec {r : UpperRun} (listed : r ∈ upperRuns) {c : Char} (large : ¬c.toNat < 0x80)
    (holds : r.run.holds c.toNat = true) (part : isIdentContinue c = true) :
    Char.ofNat (r.moved c.toNat) = c ∨ isIdentStart (Char.ofNat (r.moved c.toNat)) = true := by
  rcases upperRuns_move r listed with still | lands | foreign
  · left
    rw [UpperRun.moved, still, Int.add_zero, Int.toNat_natCast, Char.ofNat_toNat]
  · exact .inr (isIdentStart_moved lands holds)
  · rw [foreign_not_identContinue foreign large holds] at part
    cases part

/-! ## The lower-case form -/

/-- The lower-case form of a character of an identifier goes on an identifier, and its
first character is the character itself or a letter. -/
theorem lower_spec {c : Char} (part : isIdentContinue c = true) :
    ∃ d rest, lower c = d :: rest ∧ (d = c ∨ isIdentStart d = true) ∧
      ∀ x ∈ rest, isIdentContinue x = true := by
  unfold lower
  split
  · exact ⟨c, [], rfl, .inl rfl, by simp⟩
  · rename_i upper
    rw [Bool.not_eq_true, Bool.not_eq_false'] at upper
    split
    · rename_i small
      rw [isUpper, if_pos small] at upper
      exact ⟨_, [], rfl, .inr ((asciiCase small).capital upper), by simp⟩
    · rename_i large
      split
      · refine ⟨'i', ['\u0307'], rfl, .inr rfl, List.forall_mem_singleton.mpr ?_⟩
        rw [isIdentContinue, if_neg (by decide), Bool.or_eq_true]
        exact .inr (within_iff.mpr ⟨(0x300, 0x36f), .tail _ (.head _), by decide⟩)
      · split
        · rename_i r found
          have holds : r.run.holds c.toNat = true := by simpa using List.find?_some found
          exact ⟨_, [], rfl, moved_spec (List.mem_of_find?_eq_some found) large holds part, by simp⟩
        · exact ⟨c, [], rfl, .inl rfl, by simp⟩

/-! ## ASCII capitals -/

theorem not_isUpper_of_large {c : Char} (large : 0x5b ≤ c.toNat) : c.isUpper = false := by
  refine decide_eq_false fun upper => ?_
  have last : c.toNat ≤ 90 := UInt32.le_iff_toNat_le.mp upper.2
  omega

/-- The lower-case form of a capital lies behind the ASCII capitals and the underscore. -/
theorem lower_beyond {c : Char} (upper : isUpper c = true) : ∀ x ∈ lower c, 0x60 ≤ x.toNat := by
  unfold lower
  rw [upper, Bool.not_true, if_neg Bool.false_ne_true]
  split
  · rename_i small
    rw [isUpper, if_pos small] at upper
    rw [List.forall_mem_singleton]
    exact (asciiCase small).beyond upper
  · rename_i large
    split
    · exact List.forall_mem_cons.mpr ⟨by decide, List.forall_mem_singleton.mpr (by decide)⟩
    · split
      · rename_i r found
        have holds : r.run.holds c.toNat = true := by simpa using List.find?_some found
        obtain ⟨landed, valid⟩ := upperRuns_beyond r (List.mem_of_find?_eq_some found)
        obtain ⟨least, most⟩ := Run.bounds holds
        have above : r.moved r.run.first ≤ r.moved c.toNat := by unfold UpperRun.moved; omega
        have below : r.moved c.toNat ≤ r.moved r.run.last := by unfold UpperRun.moved; omega
        have same : (Char.ofNat (r.moved c.toNat)).toNat = r.moved c.toNat :=
          toNat_ofNat (by unfold Nat.isValidChar; omega)
        rw [List.forall_mem_singleton]
        exact same ▸ Nat.le_trans landed above
      · exact List.forall_mem_singleton.mpr (by omega)

/-- A lower-case form has no ASCII capital. -/
theorem lower_not_isUpper (c : Char) : ∀ x ∈ lower c, x.isUpper = false := by
  intro x member
  cases upper : isUpper c with
  | true => exact not_isUpper_of_large (Nat.le_trans (by decide) (lower_beyond upper x member))
  | false =>
      rw [lower_eq_self c upper, List.mem_singleton] at member
      subst member
      by_cases small : x.toNat < 0x80
      · rwa [isUpper, if_pos small] at upper
      · exact not_isUpper_of_large (by omega)

/-- Only an underscore has one in its lower-case form. -/
theorem underscore_mem_lower {c : Char} (member : '_' ∈ lower c) : c = '_' := by
  cases upper : isUpper c with
  | true => exact absurd (lower_beyond upper '_' member) (by decide)
  | false => rwa [lower_eq_self c upper, List.mem_singleton, eq_comm] at member

theorem lower_ne_nil (c : Char) : lower c ≠ [] := by
  unfold lower
  split
  · simp
  · split
    · simp
    · split
      · simp
      · split <;> simp

theorem toLower_large {c : Char} (large : ¬c.toNat < 0x80) : c.toLower = c := by
  refine dif_neg fun letter => large ?_
  exact Nat.lt_of_le_of_lt (UInt32.le_iff_toNat_le.mp letter.2) (by decide)

/-- What is no capital is found again behind its capital. -/
theorem toLower_toUpper {c : Char} (plain : c.isUpper = false) : c.toUpper.toLower = c := by
  by_cases small : c.toNat < 0x80
  · exact (asciiCase small).back plain
  · rw [toUpper_large small, toLower_large small]

/-- A text without ASCII capitals. -/
def IsUncapped (s : String) : Prop := ∀ c ∈ s.toList, c.isUpper = false

instance (s : String) : Decidable (IsUncapped s) :=
  decidable_of_iff (s.toList.all (!·.isUpper) = true) (by simp [IsUncapped])

/-- Texts without capitals are told apart by their capitals. -/
theorem asciiUpper_inj {s t : String} (uncapped : IsUncapped s) (uncapped' : IsUncapped t)
    (same : asciiUpper s = asciiUpper t) : s = t := by
  have back {u : String} (uncapped : IsUncapped u) : asciiLower (asciiUpper u) = u := by
    apply String.toList_injective
    rw [asciiLower, asciiUpper, String.toList_ofList, String.toList_ofList, List.map_map]
    refine (List.map_congr_left fun c member => ?_).trans (List.map_id _)
    exact toLower_toUpper (uncapped c member)
  rw [← back uncapped, same, back uncapped']

end LogInterface.Text
