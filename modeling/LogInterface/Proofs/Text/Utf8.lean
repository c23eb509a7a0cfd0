/-
# Proofs.Text.Utf8 -- the bytes of a text are that text

A text that was written as bytes is read as the same text (`ofBytes?_bytesOf`).  The bytes of a
character are a first byte, which tells how many follow and between which bounds the next one
lies, and bytes that give six bits each.  The bounds leave out what is written too long, the
surrogates and what is past the last character, and none of these is a character
(`decodeFirst_encode`).
-/
import LogInterface.Text.Utf8

namespace LogInterface.Text

set_option autoImplicit false

/-! ## The bytes of a text -/

theorem toList_loop_eq (bytes : ByteArray) (start : Nat) (read : List UInt8) :
    ByteArray.toList.loop bytes start read = read.reverse ++ bytes.data.toList.drop start := by
  fun_induction ByteArray.toList.loop bytes start read with
  | case1 start read inside ih =>
      have inside : start < bytes.data.toList.length := by simpa using inside
      have next : bytes.get! start = bytes.data.toList[start] := by
        rw [ByteArray.get!, getElem!_pos bytes.data start (by simpa using inside)]
        rfl
      rw [ih, List.drop_eq_getElem_cons inside, next, List.reverse_cons, List.append_assoc]
      rfl
  | case2 start read outside =>
      rw [List.drop_eq_nil_of_le (by simpa using Nat.le_of_not_lt outside), List.append_nil]

theorem bytesOf_eq (s : String) : bytesOf s = s.toList.flatMap String.utf8EncodeChar := by
  rw [bytesOf, String.toUTF8, ← String.utf8Encode_toList, ByteArray.toList, toList_loop_eq,
    List.utf8Encode, List.toList_data_toByteArray]
  rfl

/-! ## Characters of several bytes -/

/-- A byte behind the first one of a character. -/
def IsFollowing (b : UInt8) : Prop := 0x80 ≤ b.toNat ∧ b.toNat ≤ 0xBF

theorem followingCount_full {bs : List UInt8} (following : ∀ b ∈ bs, IsFollowing b)
    (rest : List UInt8) : followingCount bs.length 0x80 0xBF (bs ++ rest) = bs.length := by
  induction bs with
  | nil => rfl
  | cons b bs ih =>
      obtain ⟨first, following⟩ := List.forall_mem_cons.mp following
      rw [IsFollowing] at first
      rw [List.length_cons, List.cons_append, followingCount, if_pos first, ih following,
        Nat.add_comm]

/-- A first byte with all the bytes that belong to it is a character. -/
theorem decodeFirst_several {b next : UInt8} {lead : Lead} (bs : List UInt8)
    (several : ¬b.toNat < 0x80) (leads : Lead.ofByte? b.toNat = some lead)
    (full : lead.following = bs.length + 1)
    (bounded : lead.low ≤ next.toNat ∧ next.toNat ≤ lead.high)
    (following : ∀ b ∈ bs, IsFollowing b) (rest : List UInt8) :
    decodeFirst b (next :: bs ++ rest)
      = (some (Char.ofNat ((next :: bs).foldl (fun code b => 64 * code + b.toNat % 64)
          (leadBits lead.following b.toNat))), (next :: bs).length) := by
  have count : followingCount lead.following lead.low lead.high (next :: bs ++ rest)
      = bs.length + 1 := by
    rw [full, List.cons_append, followingCount, if_pos bounded, followingCount_full following,
      Nat.add_comm]
  have taken : (next :: bs ++ rest).take (bs.length + 1) = next :: bs := List.take_left' rfl
  rw [decodeFirst, if_neg several, leads]
  simp only [count]
  rw [if_pos full.symm, taken]
  rfl

/-- The first byte of a character of two bytes. -/
theorem ofByte?_two {b : Nat} (low : 0xC2 ≤ b) (high : b ≤ 0xDF) :
    Lead.ofByte? b = some { following := 1 } := by
  rw [Lead.ofByte?, if_neg (by omega), if_pos high]

/-- Of three bytes, the second one is bounded by what is no shorter character and no surrogate. -/
theorem ofByte?_three {b next : Nat} (low : 0xE0 ≤ b) (high : b ≤ 0xEF)
    (isFollowing : 0x80 ≤ next ∧ next ≤ 0xBF) (notShorter : b = 0xE0 → 0xA0 ≤ next)
    (notSurrogate : b = 0xED → next ≤ 0x9F) :
    ∃ lead, Lead.ofByte? b = some lead ∧ lead.following = 2 ∧ lead.low ≤ next
      ∧ next ≤ lead.high := by
  rw [Lead.ofByte?, if_neg (by omega), if_neg (by omega)]
  split
  · exact ⟨_, rfl, rfl, notShorter ‹_›, isFollowing.2⟩
  split
  · exact ⟨_, rfl, rfl, isFollowing.1, notSurrogate ‹_›⟩
  · exact ⟨_, rfl, rfl, isFollowing⟩

/-- Of four bytes, the second one is bounded by what is no shorter character and what is past the
last one. -/
theorem ofByte?_four {b next : Nat} (low : 0xF0 ≤ b) (high : b ≤ 0xF4)
    (isFollowing : 0x80 ≤ next ∧ next ≤ 0xBF) (notShorter : b = 0xF0 → 0x90 ≤ next)
    (notPast : b = 0xF4 → next ≤ 0x8F) :
    ∃ lead, Lead.ofByte? b = some lead ∧ lead.following = 3 ∧ lead.low ≤ next
      ∧ next ≤ lead.high := by
  rw [Lead.ofByte?, if_neg (by omega), if_neg (by omega), if_neg (by omega), if_neg (by omega),
    if_neg (by omega)]
  split
  · exact ⟨_, rfl, rfl, notShorter ‹_›, isFollowing.2⟩
  split
  · exact ⟨_, rfl, rfl, isFollowing⟩
  · rw [if_pos (by omega)]
    exact ⟨_, rfl, rfl, isFollowing.1, notPast (by omega)⟩

theorem decodeFirst_two {b last : UInt8} (low : 0xC2 ≤ b.toNat) (high : b.toNat ≤ 0xDF)
    (following : IsFollowing last) (rest : List UInt8) :
    decodeFirst b (last :: rest)
      = (some (Char.ofNat (64 * (b.toNat % 32) + last.toNat % 64)), 1) :=
  decodeFirst_several [] (by omega) (ofByte?_two low high) rfl following nofun rest

theorem decodeFirst_three {b next last : UInt8} (low : 0xE0 ≤ b.toNat) (high : b.toNat ≤ 0xEF)
    (isFollowing : IsFollowing next) (notShorter : b.toNat = 0xE0 → 0xA0 ≤ next.toNat)
    (notSurrogate : b.toNat = 0xED → next.toNat ≤ 0x9F) (following : IsFollowing last)
    (rest : List UInt8) :
    decodeFirst b (next :: last :: rest)
      = (some (Char.ofNat (64 * (64 * (b.toNat % 16) + next.toNat % 64) + last.toNat % 64)), 2) := by
  obtain ⟨lead, leads, full, bounded⟩ := ofByte?_three low high isFollowing notShorter notSurrogate
  have decoded := decodeFirst_several [last] (by omega) leads full bounded
    (by simpa using following) rest
  rw [full] at decoded
  exact decoded

theorem decodeFirst_four {b next third last : UInt8} (low : 0xF0 ≤ b.toNat) (high : b.toNat ≤ 0xF4)
    (isFollowing : IsFollowing next) (notShorter : b.toNat = 0xF0 → 0x90 ≤ next.toNat)
    (notPast : b.toNat = 0xF4 → next.toNat ≤ 0x8F) (following : IsFollowing third)
    (following' : IsFollowing last) (rest : List UInt8) :
    decodeFirst b (next :: third :: last :: rest)
      = (some (Char.ofNat (64 * (64 * (64 * (b.toNat % 8) + next.toNat % 64) + third.toNat % 64)
          + last.toNat % 64)), 3) := by
  obtain ⟨lead, leads, full, bounded⟩ := ofByte?_four low high isFollowing notShorter notPast
  have decoded := decodeFirst_several [third, last] (by omega) leads full bounded
    (by simp [following, following']) rest
  rw [full] at decoded
  exact decoded

/-- **The bytes of a character are that character**, whatever follows them. -/
theorem decodeFirst_encode (c : Char) (rest : List UInt8) :
    ∃ b bs, String.utf8EncodeChar c = b :: bs ∧
      decodeFirst b (bs ++ rest) = (some c, bs.length) := by
  have isChar : c.val.toNat < 55296 ∨ 57343 < c.val.toNat ∧ c.val.toNat < 1114112 := c.valid
  have same {n : Nat} (code : n = c.val.toNat) : Char.ofNat n = c := code ▸ Char.ofNat_toNat c
  have small (n : Nat) (fits : n < 256) : (UInt8.ofNat n).toNat = n := UInt8.toNat_ofNat_of_lt' fits
  have follows (n : Nat) (fits : n < 64) : IsFollowing (UInt8.ofNat (n + 128)) := by
    rw [IsFollowing, small _ (by omega)]
    omega
  unfold String.utf8EncodeChar
  generalize c.val.toNat = v at *
  -- The last three bytes of a character, as far as it has them.
  have last := small (v % 64 + 128) (by omega)
  have third := small (v / 64 % 64 + 128) (by omega)
  have second := small (v / 4096 % 64 + 128) (by omega)
  simp only
  split
  case isTrue one =>
    refine ⟨_, _, rfl, ?_⟩
    rw [decodeFirst, small v (by omega), if_pos (by omega), same rfl]
    rfl
  split
  case isTrue two =>
    have first := small (v / 64 % 32 + 192) (by omega)
    refine ⟨_, _, rfl, (decodeFirst_two (by omega) (by omega) (follows _ (by omega)) rest).trans ?_⟩
    rw [same (by omega)]
    rfl
  split
  case isTrue three =>
    have first := small (v / 4096 % 16 + 224) (by omega)
    refine ⟨_, _, rfl, (decodeFirst_three (by omega) (by omega) (follows _ (by omega)) (by omega)
      (by omega) (follows _ (by omega)) rest).trans ?_⟩
    rw [same (by omega)]
    rfl
  case isFalse four =>
    have first := small (v / 262144 % 8 + 240) (by omega)
    refine ⟨_, _, rfl, (decodeFirst_four (by omega) (by omega) (follows _ (by omega)) (by omega)
      (by omega) (follows _ (by omega)) (follows _ (by omega)) rest).trans ?_⟩
    rw [same (by omega)]
    rfl

/-! ## Whole texts -/

theorem decodeWithin_encode {fuel : Nat} {cs : List Char}
    (enough : (cs.flatMap String.utf8EncodeChar).length ≤ fuel) :
    decodeWithin fuel (cs.flatMap String.utf8EncodeChar) = cs.map some := by
  induction cs generalizing fuel with
  | nil => cases fuel <;> rfl
  | cons c cs ih =>
      obtain ⟨b, bs, bytes, decoded⟩ := decodeFirst_encode c (cs.flatMap String.utf8EncodeChar)
      rw [List.flatMap_cons, bytes, List.cons_append, List.length_cons, List.length_append]
        at enough
      obtain ⟨fuel, rfl⟩ : ∃ n, fuel = n + 1 := ⟨fuel - 1, by omega⟩
      rw [List.flatMap_cons, bytes, List.cons_append, decodeWithin, decoded]
      simp only [List.drop_left, List.map_cons]
      rw [ih (by omega)]

/-- **A text that was written as bytes is read as the same text.** -/
theorem ofBytes?_bytesOf (s : String) : ofBytes? (bytesOf s) = some s := by
  have whole (cs : List Char) : (cs.map some).mapM id = some cs := by
    induction cs with
    | nil => rfl
    | cons c cs ih =>
        rw [List.map_cons, List.mapM_cons, ih]
        rfl
  rw [ofBytes?, decode, bytesOf_eq, decodeWithin_encode (Nat.le_refl _), whole, Option.map_some,
    String.ofList_toList]

end LogInterface.Text
