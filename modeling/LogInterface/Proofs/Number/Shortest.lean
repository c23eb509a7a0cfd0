/-
# Proofs.Number.Shortest -- the fewest digits that denote a binary number

The reals that round to a binary number are an interval around it, and the fewest digits that
denote it are searched in there: for each unit from the largest one on, a whole number of units
that lies in the interval.  What the search finds depends on the interval alone and not on how it
is given (`hit?_eq`).

* A whole number of units in the interval is found if there is any (`hit?_eq_none_iff`), and it
  lies in there (`contains_of_hit?`).
* A smaller interval around the same number has fewer hits.  So if what is found for the larger
  one lies in the smaller one too, it is found there as well (`search_narrow`).
* In double precision seventeen digits always suffice: the interval is wider than the last unit
  (`search_contains`).
-/
import Mathlib.Tactic.Positivity
import LogInterface.Proofs.Number.Digits

namespace LogInterface.Number

set_option autoImplicit false

namespace Interval

/-! ## Intervals as sets of numbers -/

def center (i : Interval) : ℚ := i.value * 2 ^ i.quarter

def left (i : Interval) : ℚ := i.low * 2 ^ i.quarter

def right (i : Interval) : ℚ := i.high * 2 ^ i.quarter

def Contains (i : Interval) (x : ℚ) : Prop :=
  if i.closed then i.left ≤ x ∧ x ≤ i.right else i.left < x ∧ x < i.right

instance (i : Interval) (x : ℚ) : Decidable (i.Contains x) :=
  inferInstanceAs (Decidable (if i.closed then _ else _))

variable {i : Interval} {x y : ℚ}

theorem contains_of_between (above : i.left < x) (below : x < i.right) : i.Contains x := by
  rw [Contains]
  split
  · exact ⟨above.le, below.le⟩
  · exact ⟨above, below⟩

theorem Contains.bounds (contains : i.Contains x) : i.left ≤ x ∧ x ≤ i.right := by
  rw [Contains] at contains
  split at contains
  · exact contains
  · exact ⟨contains.1.le, contains.2.le⟩

/-- Between two numbers of the interval there is no other one. -/
theorem Contains.between {z : ℚ} (first : i.Contains x) (last : i.Contains z) (above : x ≤ y)
    (below : y ≤ z) : i.Contains y := by
  rw [Contains] at first last ⊢
  split at first
  · rename_i closed
    rw [if_pos closed] at last ⊢
    exact ⟨first.1.trans above, below.trans last.2⟩
  · rename_i isOpen
    rw [if_neg isOpen] at last ⊢
    exact ⟨first.1.trans_le above, below.trans_lt last.2⟩

/-! ## Hits -/

/-- The whole part of the number in the middle, in a unit. -/
def below (i : Interval) (unit : Int) : Nat := ⌊i.center / (10 : ℚ) ^ unit⌋₊

theorem toRat_units (m : Nat) (quarter unit : Int) :
    ((Ratio.ofPower m 2 quarter).overTens unit).toRat = m * 2 ^ quarter / (10 : ℚ) ^ unit := by
  rw [Ratio.toRat_overTens, Ratio.toRat_ofPower]
  rfl

theorem units_den_pos (m : Nat) (quarter unit : Int) :
    0 < ((Ratio.ofPower m 2 quarter).overTens unit).den :=
  Ratio.overTens_den_pos (Ratio.ofPower_den_pos (by decide) m quarter) unit

theorem holds_eq (i : Interval) (unit : Int) (c : Nat) :
    holds i.closed ((Ratio.ofPower i.low 2 i.quarter).overTens unit)
        ((Ratio.ofPower i.high 2 i.quarter).overTens unit) c
      = decide (i.Contains (c * 10 ^ unit)) := by
  have power : (0 : ℚ) < 10 ^ unit := zpow_pos (by norm_num) unit
  have low := units_den_pos i.low i.quarter unit
  have high := units_den_pos i.high i.quarter unit
  have atLeast : ((Ratio.ofPower i.low 2 i.quarter).overTens unit).num
      ≤ c * ((Ratio.ofPower i.low 2 i.quarter).overTens unit).den ↔ i.left ≤ c * 10 ^ unit := by
    rw [Ratio.num_le_mul_iff low, toRat_units, div_le_iff₀ power, left]
  have atMost : c * ((Ratio.ofPower i.high 2 i.quarter).overTens unit).den
      ≤ ((Ratio.ofPower i.high 2 i.quarter).overTens unit).num ↔ c * 10 ^ unit ≤ i.right := by
    rw [Ratio.mul_le_num_iff high, toRat_units, le_div_iff₀ power, right]
  have more : ((Ratio.ofPower i.low 2 i.quarter).overTens unit).num
      < c * ((Ratio.ofPower i.low 2 i.quarter).overTens unit).den ↔ i.left < c * 10 ^ unit := by
    rw [← not_le, Ratio.mul_le_num_iff low, toRat_units, le_div_iff₀ power, left, not_le]
  have less : c * ((Ratio.ofPower i.high 2 i.quarter).overTens unit).den
      < ((Ratio.ofPower i.high 2 i.quarter).overTens unit).num ↔ c * 10 ^ unit < i.right := by
    rw [← not_le, Ratio.num_le_mul_iff high, toRat_units, div_le_iff₀ power, right, not_le]
  rw [holds, Bool.eq_iff_iff, decide_eq_true_iff, Contains]
  by_cases closed : i.closed = true
  · rw [if_pos closed, if_pos closed, Bool.and_eq_true, decide_eq_true_iff, decide_eq_true_iff,
      atLeast, atMost]
  · rw [if_neg closed, if_neg closed, Bool.and_eq_true, decide_eq_true_iff, decide_eq_true_iff,
      more, less]

/-- **A hit depends on the interval alone.**  Of the two whole numbers of units next to the middle
it is the one in the interval, or the nearer one. -/
theorem hit?_eq (i : Interval) (unit : Int) :
    i.hit? unit =
      if i.Contains (i.below unit * 10 ^ unit) then
        if i.Contains ((i.below unit + 1 : Nat) * 10 ^ unit) then
          some (if 2 * (i.center / 10 ^ unit - i.below unit) < 1 then i.below unit
            else i.below unit + 1)
        else some (i.below unit)
      else if i.Contains ((i.below unit + 1 : Nat) * 10 ^ unit) then some (i.below unit + 1)
      else none := by
  have floor : ((Ratio.ofPower i.value 2 i.quarter).overTens unit).floor = i.below unit := by
    rw [Ratio.floor_eq, toRat_units, below, center]
  have near := nearer_eq (units_den_pos i.value i.quarter unit) (i.below unit)
  rw [toRat_units, ← center] at near
  rw [hit?]
  simp only [floor, holds_eq, near]
  by_cases first : i.Contains (i.below unit * 10 ^ unit) <;>
    by_cases second : i.Contains ((i.below unit + 1 : Nat) * 10 ^ unit) <;>
    simp only [first, second, decide_true, decide_false, if_true, if_false]

variable {unit : Int}

theorem contains_of_hit? {c : Nat} (hit : i.hit? unit = some c) : i.Contains (c * 10 ^ unit) := by
  rw [hit?_eq] at hit
  split at hit
  · rename_i first
    split at hit
    · rename_i second
      cases hit
      split
      · exact first
      · exact second
    · cases hit
      exact first
  · split at hit
    · rename_i second
      cases hit
      exact second
    · cases hit

/-- The whole numbers of units around the middle are next to it. -/
theorem below_le (i : Interval) (unit : Int) :
    (i.below unit : ℚ) * 10 ^ unit ≤ i.center ∧
      i.center < ((i.below unit + 1 : Nat) : ℚ) * 10 ^ unit := by
  have power : (0 : ℚ) < 10 ^ unit := zpow_pos (by norm_num) unit
  have positive : 0 ≤ i.center / (10 : ℚ) ^ unit := by
    have two : (0 : ℚ) < 2 ^ i.quarter := zpow_pos (by norm_num) _
    rw [center]
    positivity
  constructor
  · rw [← le_div_iff₀ power]
    exact Nat.floor_le positive
  · rw [← div_lt_iff₀ power, below, Nat.cast_add, Nat.cast_one]
    exact Nat.lt_floor_add_one _

/-- **There is a hit if there is any whole number of units in the interval.** -/
theorem hit?_eq_none_iff (middle : i.Contains i.center) :
    i.hit? unit = none ↔ ∀ c : Nat, ¬i.Contains (c * 10 ^ unit) := by
  have power : (0 : ℚ) < 10 ^ unit := zpow_pos (by norm_num) unit
  constructor
  · intro none c inside
    rw [hit?_eq] at none
    obtain ⟨small, large⟩ := i.below_le unit
    -- The number that is next to the middle on the side of `c` lies in the interval too.
    rcases Nat.lt_or_ge (i.below unit) c with above | under
    · have order : ((i.below unit + 1 : Nat) : ℚ) * 10 ^ unit ≤ c * 10 ^ unit :=
        mul_le_mul_of_nonneg_right (by exact_mod_cast above) power.le
      have next := middle.between inside large.le order
      rw [if_pos next] at none
      split at none <;> cases none
    · have order : (c : ℚ) * 10 ^ unit ≤ i.below unit * 10 ^ unit :=
        mul_le_mul_of_nonneg_right (by exact_mod_cast under) power.le
      have next := inside.between middle order small
      rw [if_pos next] at none
      split at none <;> cases none
  · intro outside
    cases found : i.hit? unit with
    | none => rfl
    | some c => exact absurd (contains_of_hit? found) (outside c)

/-! ## Narrower intervals -/

variable {j : Interval}

/-- A hit that lies in a smaller interval around the same number is the hit there. -/
theorem hit?_narrow (narrow : ∀ x, j.Contains x → i.Contains x) (same : j.center = i.center)
    {c : Nat} (hit : i.hit? unit = some c) (inside : j.Contains (c * 10 ^ unit)) :
    j.hit? unit = some c := by
  have next : j.below unit = i.below unit := by rw [below, below, same]
  rw [hit?_eq] at hit ⊢
  rw [next, same]
  by_cases first : j.Contains (i.below unit * 10 ^ unit)
  · rw [if_pos first]
    rw [if_pos (narrow _ first)] at hit
    by_cases second : j.Contains ((i.below unit + 1 : Nat) * 10 ^ unit)
    · rw [if_pos second]
      rwa [if_pos (narrow _ second)] at hit
    · rw [if_neg second]
      -- The number above is not in the smaller interval, so it was not the hit.
      have other : c ≠ i.below unit + 1 := fun same => second (same ▸ inside)
      split at hit
      · split at hit
        · exact hit
        · exact absurd (Option.some.inj hit).symm other
      · exact hit
  · rw [if_neg first]
    have other : c ≠ i.below unit := fun same => first (same ▸ inside)
    have hits : c = i.below unit + 1 := by
      split at hit <;> split at hit
      · split at hit
        · exact absurd (Option.some.inj hit).symm other
        · exact (Option.some.inj hit).symm
      · exact absurd (Option.some.inj hit).symm other
      · exact (Option.some.inj hit).symm
      · cases hit
    rw [if_pos (hits ▸ inside), hits]

/-- **What is found for an interval is found for a smaller one around the same number**, if it
lies in there. -/
theorem search_narrow (narrow : ∀ x, j.Contains x → i.Contains x) (same : j.center = i.center)
    (middle : j.Contains j.center) (fuel : Nat) (unit : Int)
    (inside : j.Contains ((i.search fuel unit).1 * 10 ^ (i.search fuel unit).2)) :
    j.search fuel unit = i.search fuel unit := by
  induction fuel generalizing unit with
  | zero =>
      rw [search, search, Ratio.floor_eq, Ratio.floor_eq, toRat_units, toRat_units, ← center,
        ← center, same]
  | succ fuel ih =>
      rw [search] at inside ⊢
      cases hit : i.hit? unit with
      | some c =>
          rw [hit] at inside
          rw [search, hit, hit?_narrow narrow same hit inside]
      | none =>
          have wider : i.Contains i.center := same ▸ narrow _ middle
          have fewer : j.hit? unit = none := by
            rw [hit?_eq_none_iff middle]
            exact fun c found => (hit?_eq_none_iff wider).mp hit c (narrow _ found)
          rw [hit] at inside
          rw [search, hit, fewer]
          exact ih (unit - 1) inside

/-- What is found lies in the interval, if there is anything to find. -/
theorem search_contains (middle : i.Contains i.center) {fuel : Nat} {unit : Int} {steps : Nat}
    (soon : steps < fuel) {c : Nat} (inside : i.Contains (c * 10 ^ (unit - steps))) :
    i.Contains ((i.search fuel unit).1 * 10 ^ (i.search fuel unit).2) := by
  induction fuel generalizing unit steps with
  | zero => cases soon
  | succ fuel ih =>
      rw [search]
      cases hit : i.hit? unit with
      | some d => exact contains_of_hit? hit
      | none =>
          cases steps with
          | zero =>
              rw [Nat.cast_zero, sub_zero] at inside
              exact absurd inside ((hit?_eq_none_iff middle).mp hit c)
          | succ steps =>
              have further : unit - 1 - (steps : Int) = unit - (steps + 1 : Nat) := by omega
              exact ih (Nat.lt_of_succ_lt_succ soon) (further ▸ inside)

/-! ## The interval around a binary number -/

section Around

variable {f g : BinaryFormat} {m : Nat} {q : Int}

/-- Four quarters of a step. -/
theorem four_quarters (q : Int) : (4 : ℚ) * 2 ^ (q - 2) = 2 ^ q := by
  have parts : (2 : ℚ) ^ q = 2 ^ (q - 2) * 2 ^ (2 : Int) := by
    rw [← zpow_add₀ (by norm_num)]
    congr 1
    omega
  rw [parts]
  norm_num
  ring

theorem center_of (f : BinaryFormat) (m : Nat) (q : Int) :
    (Interval.of f m q).center = m * 2 ^ q := by
  rw [center, Interval.of, ← four_quarters q, Nat.cast_mul]
  norm_num
  ring

theorem right_of (f : BinaryFormat) (m : Nat) (q : Int) :
    (Interval.of f m q).right = m * 2 ^ q + 2 * 2 ^ (q - 2) := by
  rw [right, Interval.of, ← four_quarters q, Nat.cast_add, Nat.cast_mul]
  norm_num
  ring

/-- How many quarters of a step the interval goes down. -/
def quartersBelow (f : BinaryFormat) (m : Nat) (q : Int) : Nat :=
  if m = Nat.pow 2 f.fraction ∧ q > f.least then 1 else 2

theorem quartersBelow_cases (f : BinaryFormat) (m : Nat) (q : Int) :
    quartersBelow f m q = 1 ∧ m = Nat.pow 2 f.fraction ∨ quartersBelow f m q = 2 := by
  rw [quartersBelow]
  split
  · rename_i power
    exact .inl ⟨rfl, power.1⟩
  · exact .inr rfl

theorem one_le_quartersBelow (f : BinaryFormat) (m : Nat) (q : Int) :
    (1 : ℚ) ≤ quartersBelow f m q := by
  rcases quartersBelow_cases f m q with ⟨one, -⟩ | two
  · rw [one, Nat.cast_one]
  · rw [two]
    norm_num

theorem quartersBelow_le (f : BinaryFormat) (m : Nat) (q : Int) :
    (quartersBelow f m q : ℚ) ≤ 2 := by
  rcases quartersBelow_cases f m q with ⟨one, -⟩ | two
  · rw [one]
    norm_num
  · rw [two]
    norm_num

theorem left_of (f : BinaryFormat) (positive : m ≠ 0) (q : Int) :
    (Interval.of f m q).left = m * 2 ^ q - quartersBelow f m q * 2 ^ (q - 2) := by
  have enough : quartersBelow f m q ≤ 4 * m := by
    rcases quartersBelow_cases f m q with ⟨one, -⟩ | two
    · omega
    · omega
  have low : (Interval.of f m q).low = 4 * m - quartersBelow f m q := rfl
  have quarter : (Interval.of f m q).quarter = q - 2 := rfl
  rw [left, low, quarter, ← four_quarters q, Nat.cast_sub enough, Nat.cast_mul]
  norm_num
  ring

/-- A number lies inside its interval. -/
theorem contains_center (f : BinaryFormat) (positive : m ≠ 0) (q : Int) :
    (Interval.of f m q).Contains (Interval.of f m q).center := by
  have quarter : (0 : ℚ) < 2 ^ (q - 2) := zpow_pos (by norm_num) _
  have some := one_le_quartersBelow f m q
  apply contains_of_between
  · rw [left_of f positive, center_of]
    nlinarith
  · rw [right_of, center_of]
    linarith

/-- **The interval of a number is narrower in a larger format**, where its significand has more
bits. -/
theorem narrow_of (f g : BinaryFormat) (positive : m ≠ 0) {k : Nat} (more : 2 ≤ k) (x : ℚ)
    (inside : (Interval.of g (m * Nat.pow 2 k) (q - k)).Contains x) :
    (Interval.of f m q).Contains x := by
  have quarter : (0 : ℚ) < 2 ^ (q - k - 2) := zpow_pos (by norm_num) _
  have larger : (4 : ℚ) * 2 ^ (q - k - 2) ≤ 2 ^ (q - 2) := by
    rw [four_quarters, zpow_le_zpow_iff_right₀ (by norm_num)]
    omega
  have filled : m * Nat.pow 2 k ≠ 0 := Nat.mul_ne_zero positive (Nat.two_pow_pos k).ne'
  obtain ⟨above, below⟩ := inside.bounds
  rw [left_of g filled, Ratio.doubled_eq] at above
  rw [right_of, Ratio.doubled_eq] at below
  have atMost := quartersBelow_le g (m * Nat.pow 2 k) (q - k)
  have atLeast := one_le_quartersBelow f m q
  apply contains_of_between
  · rw [left_of f positive]
    nlinarith
  · rw [right_of]
    linarith

/-- An interval that is wider than a unit holds a whole number of units. -/
theorem exists_units {i : Interval} {unit : ℚ} (positive : 0 < unit) (above : 0 < i.right)
    (wide : unit < i.right - i.left) : ∃ c : Nat, i.Contains (c * unit) := by
  have some : 0 < ⌈i.right / unit⌉₊ := Nat.ceil_pos.mpr (div_pos above positive)
  have reaches : i.right / unit ≤ ⌈i.right / unit⌉₊ := Nat.le_ceil _
  have last : ((⌈i.right / unit⌉₊ - 1 : Nat) : ℚ) < i.right / unit :=
    Nat.lt_ceil.mp (Nat.sub_lt some Nat.one_pos)
  rw [div_le_iff₀ positive] at reaches
  rw [lt_div_iff₀ positive] at last
  refine ⟨⌈i.right / unit⌉₊ - 1, contains_of_between ?_ last⟩
  rw [Nat.cast_sub some, Nat.cast_one, sub_mul, one_mul]
  linarith

/-- **Seventeen digits suffice in double precision.** -/
theorem contains_search (positive : m ≠ 0) (fits : m < Nat.pow 2 53) {unit : Int}
    (magnitude : (10 : ℚ) ^ unit ≤ m * 2 ^ q) :
    (Interval.of binary64 m q).Contains
      (((Interval.of binary64 m q).search mostDigits unit).1
        * 10 ^ ((Interval.of binary64 m q).search mostDigits unit).2) := by
  have step : (0 : ℚ) < 2 ^ (q - 2) := zpow_pos (by norm_num) _
  have last : (10 : ℚ) ^ (unit - (16 : Nat)) * 10 ^ 16 ≤ m * 2 ^ q := by
    rw [← zpow_natCast, ← zpow_add₀ (by norm_num), sub_add_cancel]
    exact magnitude
  have small : (m : ℚ) ≤ 2 ^ 53 := by exact_mod_cast fits.le
  have wide : (10 : ℚ) ^ (unit - (16 : Nat))
      < (Interval.of binary64 m q).right - (Interval.of binary64 m q).left := by
    rw [right_of, left_of _ positive]
    rw [← four_quarters q] at last
    rcases quartersBelow_cases binary64 m q with ⟨one, power⟩ | two
    · have exact : (m : ℚ) = 2 ^ 52 := by
        rw [power]
        norm_num [binary64]
      rw [one]
      rw [exact] at last
      norm_num at last ⊢
      linarith
    · rw [two]
      norm_num at last ⊢
      nlinarith
  have above : 0 < (Interval.of binary64 m q).right := by
    rw [right_of]
    have two : (0 : ℚ) < 2 ^ q := zpow_pos (by norm_num) _
    positivity
  obtain ⟨c, inside⟩ := exists_units (zpow_pos (by norm_num) _) above wide
  exact search_contains (contains_center _ positive q) (by decide : 16 < mostDigits) inside

end Around

end Interval

end LogInterface.Number
