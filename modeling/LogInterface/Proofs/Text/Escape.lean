/-
# Proofs.Text.Escape -- where a quoted text ends

A quoted text may hold any character, quotes, backslashes and ends of lines among them, and still
shows where it ends: behind a backslash there is always a character that it escapes, and every
quote inside has one in front.  `behindQuote` goes by this alone, and finds what stands behind a
text that was shown with escapes, whatever the text was and whatever follows it.
-/
import LogInterface.Text.Escape
import Mathlib.Tactic.SplitIfs

namespace LogInterface.Text

set_option autoImplicit false

/-- The two characters that are used as quotes. -/
def IsQuote (c : Char) : Prop := c = '"' ∨ c = '\''

instance : DecidablePred IsQuote := fun c => inferInstanceAs (Decidable (c = '"' ∨ c = '\''))

def behindQuote (quote : Char) : List Char → Option (List Char)
  | [] => none
  | [c] => if c = quote then some [] else none
  | c :: d :: cs =>
      if c = quote then some (d :: cs)
      else if c = '\\' then behindQuote quote cs
      else behindQuote quote (d :: cs)

/-- Characters that say nothing about where a quoted text ends. -/
def Unremarkable (quote : Char) (cs : List Char) : Prop := ∀ c ∈ cs, c ≠ quote ∧ c ≠ '\\'

theorem behindQuote_quote (quote : Char) (cs : List Char) :
    behindQuote quote (quote :: cs) = some cs := by
  cases cs with
  | nil => exact if_pos rfl
  | cons c cs => exact if_pos rfl

theorem behindQuote_cons {quote c : Char} (other : c ≠ quote) (plain : c ≠ '\\')
    (cs : List Char) : behindQuote quote (c :: cs) = behindQuote quote cs := by
  cases cs with
  | nil => exact if_neg other
  | cons d cs => rw [behindQuote, if_neg other, if_neg plain]

theorem behindQuote_escape {quote : Char} (isQuote : IsQuote quote) (c : Char) (cs : List Char) :
    behindQuote quote ('\\' :: c :: cs) = behindQuote quote cs := by
  have other : '\\' ≠ quote := by
    rcases isQuote with rfl | rfl <;> decide
  rw [behindQuote, if_neg other, if_pos rfl]

theorem behindQuote_append {quote : Char} {cs : List Char} (plain : Unremarkable quote cs)
    (rest : List Char) : behindQuote quote (cs ++ rest) = behindQuote quote rest := by
  induction cs with
  | nil => rfl
  | cons c cs ih =>
      obtain ⟨first, others⟩ := List.forall_mem_cons.mp plain
      rw [List.cons_append, behindQuote_cons first.1 first.2, ih others]

/-! ## Escapes -/

/-- The digits of a number are written from the first to the last. -/
theorem toDigits_induction {base : Nat} (large : 1 < base) {motive : Nat → List Char → Prop}
    (digit : ∀ k < base, motive k [Nat.digitChar k])
    (next : ∀ n digits, motive n digits → ∀ k < base,
      motive (n * base + k) (digits ++ [Nat.digitChar k]))
    (n : Nat) : motive n (Nat.toDigits base n) := by
  induction n using Nat.strongRecOn with
  | ind n ih =>
      rcases Nat.lt_or_ge n base with small | atLeast
      · rw [Nat.toDigits_of_lt_base small]
        exact digit n small
      · rw [Nat.toDigits_of_base_le large atLeast]
        have earlier := ih (n / base) (Nat.div_lt_self (by omega) large)
        have whole := next _ _ earlier (n % base) (Nat.mod_lt _ (by omega))
        rwa [Nat.div_add_mod'] at whole

theorem mem_toDigits {base : Nat} (large : 1 < base) {n : Nat} {c : Char}
    (member : c ∈ Nat.toDigits base n) : ∃ k < base, c = Nat.digitChar k := by
  have all := toDigits_induction large (n := n)
    (motive := fun _ digits => ∀ c ∈ digits, ∃ k < base, c = Nat.digitChar k)
    (fun k small => List.forall_mem_singleton.mpr ⟨k, small, rfl⟩)
    (fun _ _ earlier k small =>
      List.forall_mem_append.mpr ⟨earlier, List.forall_mem_singleton.mpr ⟨k, small, rfl⟩⟩)
  exact all c member

theorem unremarkable_hexText {quote : Char} (isQuote : IsQuote quote) (n : Nat) :
    Unremarkable quote (hexText n) := by
  intro c member
  obtain ⟨k, small, rfl⟩ := mem_toDigits (by decide) member
  have digits : ∀ k < 16, Nat.digitChar k ≠ '"' ∧ Nat.digitChar k ≠ '\'' ∧
      Nat.digitChar k ≠ '\\' := by decide
  obtain ⟨double, single, plain⟩ := digits k small
  rcases isQuote with rfl | rfl
  · exact ⟨double, plain⟩
  · exact ⟨single, plain⟩

/-- A character is escaped as a pair, perhaps with its number behind it, or stands for itself. -/
theorem escapeChar_cases {quote : Char} (isQuote : IsQuote quote) (c : Char) :
    (∃ d cs, Unremarkable quote cs ∧ escapeChar quote c = '\\' :: d :: cs) ∨
      (Unremarkable quote [c] ∧ escapeChar quote c = [c]) := by
  have pair (d : Char) : ∃ e cs, Unremarkable quote cs ∧ ['\\', d] = '\\' :: e :: cs :=
    ⟨d, [], by simp [Unremarkable], rfl⟩
  unfold escapeChar
  split_ifs with null tab feed turn backslash quoted shapeless
  · exact .inl (pair _)
  · exact .inl (pair _)
  · exact .inl (pair _)
  · exact .inl (pair _)
  · exact .inl (pair _)
  · exact .inl (pair _)
  · have opens : '\x7b' ≠ quote ∧ '\x7b' ≠ '\\' := by
      rcases isQuote with rfl | rfl <;> decide
    have closes : '\x7d' ≠ quote ∧ '\x7d' ≠ '\\' := by
      rcases isQuote with rfl | rfl <;> decide
    refine .inl ⟨'u', '\x7b' :: (hexText c.toNat ++ ['\x7d']), ?_, rfl⟩
    refine List.forall_mem_cons.mpr ⟨opens, List.forall_mem_append.mpr ⟨?_, ?_⟩⟩
    · exact unremarkable_hexText isQuote c.toNat
    · exact List.forall_mem_singleton.mpr closes
  · exact .inr ⟨List.forall_mem_singleton.mpr ⟨quoted, backslash⟩, rfl⟩

theorem behindQuote_escapeChar {quote : Char} (isQuote : IsQuote quote) (c : Char)
    (rest : List Char) :
    behindQuote quote (escapeChar quote c ++ rest) = behindQuote quote rest := by
  rcases escapeChar_cases isQuote c with ⟨d, cs, plain, escaped⟩ | ⟨plain, itself⟩
  · rw [escaped, List.cons_append, List.cons_append, behindQuote_escape isQuote,
      behindQuote_append plain]
  · rw [itself, behindQuote_append plain]

/-- **No character of a shown text ends it.** -/
theorem behindQuote_escaped {quote : Char} (isQuote : IsQuote quote) (cs rest : List Char) :
    behindQuote quote (cs.flatMap (escapeChar quote) ++ quote :: rest) = some rest := by
  induction cs with
  | nil => exact behindQuote_quote quote rest
  | cons c cs ih =>
      rw [List.flatMap_cons, List.append_assoc, behindQuote_escapeChar isQuote, ih]

end LogInterface.Text
