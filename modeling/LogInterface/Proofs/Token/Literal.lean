/-
# Proofs.Token.Literal -- literals of generated source

What is generated says numbers and texts with literals: a number by its decimal digits, a text
between quotes and with escapes.  They are read by other rules, which know more ways to write
both.  Each denotes what it was written for (`integer?_repr`, `string?_quotedLiteral`), any number
and any text.

The readers keep the value of the digits so far, so both inductions take a number apart at its
last digit.
-/
import LogInterface.Proofs.Text.Cut
import LogInterface.Proofs.Text.Escape
import LogInterface.Token.Literal

namespace LogInterface

set_option autoImplicit false

open LogInterface.Text

/-! ## Whole numbers -/

namespace Literal

/-- A decimal digit is counted. -/
theorem digits_digitChar {k : Nat} (small : k < 10) (value : Nat) (some? : Bool)
    (rest : List Char) :
    digits 10 value some? (Nat.digitChar k :: rest) = digits 10 (value * 10 + k) true rest := by
  have plain : ∀ k < 10, Nat.digitChar k ≠ '_' ∧ Nat.digitChar k ≠ '.' ∧
      Nat.digitChar k ≠ 'e' ∧ Nat.digitChar k ≠ 'E' ∧ (Nat.digitChar k).isDigit = true ∧
      Quoted.hexDigit? (Nat.digitChar k) = some k := by decide
  obtain ⟨blank, point, exponent, exponent', digit, value'⟩ := plain k small
  simp only [digits, blank, point, exponent, exponent', digit, value', small, decide_false,
    Bool.or_self, Bool.false_and, Bool.false_eq_true, if_false, Bool.true_or, if_true]

theorem digits_toDigits (n : Nat) :
    ∀ rest, digits 10 0 false (Nat.toDigits 10 n ++ rest) = digits 10 n true rest := by
  refine toDigits_induction (motive := fun n written =>
    ∀ rest, digits 10 0 false (written ++ rest) = digits 10 n true rest) (by decide) ?digit ?next n
  case digit =>
    intro k small rest
    rw [List.singleton_append, digits_digitChar small, Nat.zero_mul, Nat.zero_add]
  case next =>
    intro n written read k small rest
    rw [List.append_assoc, read, List.singleton_append, digits_digitChar small]

/-- The digits of a number announce no base. -/
theorem announcedBase_toDigits (n : Nat) : Lexer.announcedBase (Nat.toDigits 10 n) = (10, 0) := by
  have other {c : Char} (letter : c.isDigit = false) (cs : List Char) :
      Nat.toDigits 10 n ≠ '0' :: c :: cs := by
    intro written
    refine notMem_toDigits letter n ?_
    rw [written]
    exact List.mem_cons_of_mem _ List.mem_cons_self
  unfold Lexer.announcedBase
  split
  · rename_i written
    exact absurd written (other (by decide) _)
  · rename_i written
    exact absurd written (other (by decide) _)
  · rename_i written
    exact absurd written (other (by decide) _)
  · rfl

/-- **A number that is written by its digits is read back.** -/
theorem integer?_repr (n : Nat) : integer? (Nat.repr n) = some n := by
  have written : (Nat.repr n).toList = Nat.toDigits 10 n := String.toList_ofList
  obtain ⟨first, others, spelled⟩ :=
    List.exists_cons_of_ne_nil (Nat.toDigits_ne_nil (b := 10) (n := n))
  have digit : first.isDigit = true :=
    Nat.isDigit_of_mem_toDigits (by decide) (by decide) (spelled ▸ List.mem_cons_self)
  have read := digits_toDigits n []
  rw [List.append_nil] at read
  have whole : whole? (Nat.repr n) = some (n, "") := by
    rw [whole?, written, announcedBase_toDigits]
    simp only [List.drop_zero, read]
    simp [spelled, digit, digits, isSuffix]
  rw [integer?, whole]
  rfl

end Literal

/-! ## Strings -/

namespace Quoted

theorem hexDigit?_digitChar {k : Nat} (small : k < 16) :
    hexDigit? (Nat.digitChar k) = some k := by
  have all : ∀ k < 16, hexDigit? (Nat.digitChar k) = some k := by decide
  exact all k small

/-- A digit of a Unicode escape, of which there are at most six. -/
theorem valueFrom_digitChar {k : Nat} (small : k < 16) {value count : Nat} (few : count < 6)
    (rest : List Char) :
    Form.text.valueFrom (.digits value count) (Nat.digitChar k :: rest)
      = Form.text.valueFrom (.digits (value * 16 + k) (count + 1)) rest := by
  simp only [Form.valueFrom, Form.step, hexDigit?_digitChar small, Nat.ne_of_lt few, if_false,
    List.nil_append]

theorem valueFrom_toDigits (n : Nat) : (Nat.toDigits 16 n).length ≤ 6 → ∀ rest,
    Form.text.valueFrom (.digits 0 0) (Nat.toDigits 16 n ++ rest)
      = Form.text.valueFrom (.digits n (Nat.toDigits 16 n).length) rest := by
  refine toDigits_induction (motive := fun n written => written.length ≤ 6 → ∀ rest,
    Form.text.valueFrom (.digits 0 0) (written ++ rest)
      = Form.text.valueFrom (.digits n written.length) rest) (by decide) ?digit ?next n
  case digit =>
    intro k small _ rest
    rw [List.singleton_append, valueFrom_digitChar small (by decide), Nat.zero_mul, Nat.zero_add]
    rfl
  case next =>
    intro n written read k small few rest
    rw [List.length_append, List.length_singleton] at few ⊢
    rw [List.append_assoc, read (by omega), List.singleton_append,
      valueFrom_digitChar small (by omega)]

/-- The number of a character has at most six digits. -/
theorem length_hexText (c : Char) : (hexText c.toNat).length ≤ 6 := by
  have small : c.toNat < 0x110000 := by
    rcases c.valid with low | high
    · exact Nat.lt_of_lt_of_le low (by decide)
    · exact high.2
  have room : c.toNat < 16 ^ 6 := Nat.lt_of_lt_of_le small (by decide)
  exact (Nat.length_toDigits_le_iff (by decide) (by decide)).mpr room

/-- The brace behind the digits of a Unicode escape ends it. -/
theorem valueFrom_closingBrace (c : Char) {count : Nat} (some : count ≠ 0) (rest : List Char) :
    Form.text.valueFrom (.digits c.toNat count) ('\x7d' :: rest)
      = c :: Form.text.valueFrom .plain rest := by
  have valid : Nat.isValidChar c.toNat := c.valid
  have no : hexDigit? '\x7d' = none := by decide
  simp [Form.valueFrom, Form.step, some, valid, no]

/-- A character that is given by its number is read back. -/
theorem valueFrom_numbered (c : Char) (rest : List Char) :
    Form.text.valueFrom .plain (numbered c ++ rest) = c :: Form.text.valueFrom .plain rest := by
  have opens (cs : List Char) : Form.text.valueFrom .plain (['\\', 'u', '\x7b'] ++ cs)
      = Form.text.valueFrom (.digits 0 0) cs := rfl
  have some : (hexText c.toNat).length ≠ 0 := Nat.ne_of_gt Nat.length_toDigits_pos
  rw [numbered, List.append_assoc, List.append_assoc, opens, hexText,
    valueFrom_toDigits c.toNat (length_hexText c)]
  exact valueFrom_closingBrace c some rest

theorem valueFrom_escapeChar (c : Char) (rest : List Char) :
    Form.text.valueFrom .plain (escapeChar '"' c ++ rest)
      = c :: Form.text.valueFrom .plain rest := by
  unfold escapeChar
  split_ifs with null tab feed turn backslash quoted shapeless
  · rw [null]; rfl
  · rw [tab]; rfl
  · rw [feed]; rfl
  · rw [turn]; rfl
  · rw [backslash]; rfl
  · rw [quoted]; rfl
  · exact valueFrom_numbered c rest
  · have itself : Form.text.step .plain c = some (.plain, [c]) := by
      simp [Form.step, Form.plainStep, quoted, turn, backslash]
    rw [List.singleton_append, Form.valueFrom, itself]
    rfl

theorem valueFrom_literalChars (cs : List Char) :
    Form.text.valueFrom .plain (literalChars cs ++ ['"']) = cs := by
  induction cs with
  | nil => rfl
  | cons c cs ih =>
      rw [literalChars, List.append_assoc]
      split
      · rename_i null
        obtain rfl : c = '\x00' :=
          decide_eq_true_iff.mp (Bool.and_eq_true_iff.mp null).1
        exact congrArg ('\x00' :: ·) ih
      · rw [valueFrom_escapeChar, ih]

end Quoted

/-- **A text that is written as a literal is read back.** -/
theorem Literal.string?_quotedLiteral (s : String) :
    Literal.string? (quotedLiteral s) = some s := by
  have written : (quotedLiteral s).toList = '"' :: (literalChars s.toList ++ ['"']) :=
    String.toList_ofList
  rw [Literal.string?, written]
  show some (String.ofList (Quoted.Form.text.valueFrom .plain _)) = some s
  rw [Quoted.valueFrom_literalChars, String.ofList_toList]

end LogInterface
