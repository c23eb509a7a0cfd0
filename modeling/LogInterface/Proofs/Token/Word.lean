/-
# Proofs.Token.Word -- identifiers in tokens and names

An identifier is a word, or a word with the mark of a raw one in front of it
(`IsIdentifier`).  The lexer finds nothing else: whatever it makes an identifier of is
one (`anyIdentLength_take`), and nesting the lexemes and doc comments adds no other
(`arrange_spelled`).  So what is read as a name from a text can be written as the name of
an item (`isName_of_withinLiteral`).
-/
import LogInterface.Interface.Arguments
import LogInterface.Proofs.Parser.Run
import Mathlib.Data.List.TakeWhile

namespace LogInterface

open LogInterface.Text

set_option autoImplicit false

/-! ## Words -/

/-- The first character can start an identifier, and every character goes on with it. -/
structure IsWord (cs : List Char) : Prop where
  starts : cs.head?.any isIdentStart = true
  goesOn : ∀ x ∈ cs, isIdentContinue x = true

theorem isWord_cons {c : Char} {cs : List Char} :
    IsWord (c :: cs) ↔ isIdentStart c = true ∧ ∀ x ∈ cs, isIdentContinue x = true := by
  constructor
  · rintro ⟨starts, goesOn⟩
    exact ⟨starts, (List.forall_mem_cons.mp goesOn).2⟩
  · rintro ⟨starts, goesOn⟩
    exact ⟨starts, List.forall_mem_cons.mpr ⟨isIdentContinue_of_start c starts, goesOn⟩⟩

theorem not_isWord_nil : ¬IsWord [] := fun word => Bool.false_ne_true word.starts

instance : DecidablePred IsWord := fun cs =>
  decidable_of_iff (cs.head?.any isIdentStart = true ∧ cs.all isIdentContinue = true)
    ⟨fun ⟨starts, goesOn⟩ => ⟨starts, List.all_eq_true.mp goesOn⟩,
      fun ⟨starts, goesOn⟩ => ⟨starts, List.all_eq_true.mpr goesOn⟩⟩

/-- A word, or a raw one behind its mark. -/
inductive IsIdentifier : List Char → Prop where
  | plain {cs : List Char} : IsWord cs → IsIdentifier cs
  | raw {cs : List Char} : IsWord cs → String.ofList cs ∉ Lexer.neverRaw →
      IsIdentifier ('r' :: '#' :: cs)

/-- A text that can be the name of an item. -/
structure IsName (text : String) : Prop where
  identifier : IsIdentifier text.toList
  ordinary : text ∉ Parser.keywords

theorem IsWord.append {cs ds : List Char} (word : IsWord cs)
    (goesOn : ∀ x ∈ ds, isIdentContinue x = true) : IsWord (cs ++ ds) where
  starts := by
    cases cs with
    | nil => exact (not_isWord_nil word).elim
    | cons c cs => exact word.starts
  goesOn := List.forall_mem_append.mpr ⟨word.goesOn, goesOn⟩

/-- The mark of a raw identifier is in no word. -/
theorem IsWord.not_raw {cs : List Char} (word : IsWord ('r' :: '#' :: cs)) : False := by
  have hash : isIdentContinue '#' = true := word.goesOn _ (by simp)
  exact absurd hash (by decide)

/-- A character that goes on with no word, and marks no raw one, is in no identifier. -/
theorem IsIdentifier.notMem {cs : List Char} (identifier : IsIdentifier cs) {c : Char}
    (notPart : isIdentContinue c = false) (notR : c ≠ 'r') (notHash : c ≠ '#') : c ∉ cs := by
  have free {cs : List Char} (word : IsWord cs) : c ∉ cs := fun member => by
    rw [word.goesOn _ member] at notPart
    cases notPart
  cases identifier with
  | plain word => exact free word
  | raw word allowed =>
      rw [List.mem_cons, List.mem_cons, not_or, not_or]
      exact ⟨notR, notHash, free word⟩

/-! ## Lengths -/

namespace Lexer

theorem identLength_take {cs : List Char} {n : Nat} (read : identLength cs = some n) :
    IsWord (cs.take n) := by
  match cs with
  | [] => cases read
  | c :: rest =>
      rw [identLength] at read
      split at read
      · rename_i starts
        cases read
        rw [Nat.add_comm, List.take_succ_cons,
          ← List.prefix_iff_eq_take.mp (List.takeWhile_prefix _)]
        exact isWord_cons.mpr ⟨starts, fun _ => List.mem_takeWhile_imp⟩
      · cases read

theorem identLength_of_isWord {cs : List Char} (word : IsWord cs) :
    identLength cs = some cs.length := by
  cases cs with
  | nil => exact (not_isWord_nil word).elim
  | cons c rest =>
      obtain ⟨starts, goesOn⟩ := isWord_cons.mp word
      rw [identLength, if_pos starts, List.takeWhile_eq_self_iff.mpr goesOn, List.length_cons,
        Nat.add_comm]

/-- A raw identifier, or a plain one behind no mark. -/
theorem anyIdentLength_take {cs : List Char} {n : Nat} (read : anyIdentLength cs = some n) :
    IsIdentifier (cs.take n) := by
  unfold anyIdentLength at read
  split at read
  · rename_i marked
    obtain ⟨rest, rfl⟩ := List.isPrefixOf_iff_prefix.mp marked
    obtain ⟨k, word, read⟩ := Option.bind_eq_some_iff.mp read
    split at read
    · cases read
    · rename_i allowed
      cases read
      exact .raw (identLength_take word) (by simpa using allowed)
  · exact .plain (identLength_take read)

end Lexer

theorem isIdentifier_iff {cs : List Char} :
    IsIdentifier cs ↔ Lexer.anyIdentLength cs = some cs.length := by
  constructor
  · rintro (⟨word⟩ | ⟨word, allowed⟩)
    · have unmarked : ¬Lexer.startsWith "r#" cs = true := by
        intro marked
        obtain ⟨rest, rfl⟩ := List.isPrefixOf_iff_prefix.mp marked
        exact word.not_raw
      rw [Lexer.anyIdentLength, if_neg unmarked, Lexer.identLength_of_isWord word]
    · rename_i cs
      show (Lexer.identLength cs).bind _ = _
      rw [Lexer.identLength_of_isWord word]
      simp [allowed]
  · intro read
    have whole := Lexer.anyIdentLength_take read
    rwa [List.take_length] at whole

instance (text : String) : Decidable (IsName text) :=
  decidable_of_iff
    (Lexer.anyIdentLength text.toList = some text.toList.length ∧ text ∉ Parser.keywords)
    ⟨fun ⟨read, ordinary⟩ => ⟨isIdentifier_iff.mpr read, ordinary⟩,
      fun ⟨identifier, ordinary⟩ => ⟨isIdentifier_iff.mp identifier, ordinary⟩⟩

/-- What a name denotes is a word, raw or not. -/
theorem IsName.isWord {i : Ident} (named : IsName i.text) : IsWord i.name.toList := by
  unfold Ident.name
  split
  · rename_i rest raw
    rw [String.toList_ofList]
    have identifier := named.identifier
    rw [raw] at identifier
    cases identifier with
    | plain word => exact word.not_raw.elim
    | raw word _ => exact word
  · rename_i unmarked
    generalize spelled : i.text.toList = cs at unmarked
    have identifier := named.identifier
    rw [spelled] at identifier
    cases identifier with
    | plain word => exact word
    | raw word _ => exact (unmarked _ rfl).elim

/-! ## Tokens -/

/-- An identifier among the tokens is spelled as one. -/
def Token.Spelled : Token → Prop
  | .ident text _ => IsIdentifier text.toList
  | _ => True

namespace Lexer

def Lexeme.Spelled : Lexeme → Prop
  | .leaf t => t.Spelled
  | _ => True

theorem lexeme?_spelled {p : Place} {cs : List Char} {x : Lexeme} {n : Nat}
    (read : lexeme? p cs = some (x, n)) : x.Spelled := by
  obtain ⟨c, -, read⟩ := Option.bind_eq_some_iff.mp read
  repeat' split at read
  all_goals try (cases read; trivial)
  -- What is left is a word, which comes behind all that is no identifier.
  obtain ⟨length, word, read⟩ := Option.bind_eq_some_iff.mp read
  cases read
  unfold wordLength at word
  split at word
  · cases word
  · rw [Lexeme.Spelled, Token.Spelled, String.toList_ofList]
    exact anyIdentLength_take word

theorem lexemesWithin_spelled {fuel : Nat} {p : Place} {cs : List Char} :
    ∀ x ∈ (lexemesWithin fuel p cs).1, x.Spelled := by
  fun_induction lexemesWithin fuel p cs with
  | case1 | case2 | case4 => simp
  | case3 _ _ _ _ _ _ ih => exact ih
  | case5 p fuel cs _ _ lexeme n read rest stop more ih =>
      rw [more] at ih
      exact List.forall_mem_cons.mpr ⟨lexeme?_spelled read, ih⟩

theorem Doc.tokens_spelled (d : Doc) (p : Place) : ∀ t ∈ d.tokens p, t.Spelled := by
  unfold Doc.tokens
  cases d.inner <;> simp [Token.Spelled]

/-- Nesting keeps the identifiers: those before every open bracket, those since the last
one, and those that follow. -/
theorem arrange_spelled {stop : Option Place} {frames : List Frame} {current : List Token}
    {lexemes : List Lexeme} {ts : List Token}
    (before : ∀ frame ∈ frames, ∀ t ∈ frame.before, t.Spelled)
    (since : ∀ t ∈ current, t.Spelled) (following : ∀ x ∈ lexemes, x.Spelled)
    (nested : arrange stop frames current lexemes = .ok ts) : ∀ t ∈ ts, t.Spelled := by
  fun_induction arrange stop frames current lexemes with
  | case1 | case2 | case7 | case9 => cases nested
  | case3 =>
      cases nested
      simpa using since
  | case4 frames current t rest ih =>
      rw [List.forall_mem_cons] at following
      exact ih before (List.forall_mem_cons.mpr ⟨following.1, since⟩) following.2 nested
  | case5 frames current d p rest ih =>
      rw [List.forall_mem_cons] at following
      refine ih before (List.forall_mem_append.mpr ⟨?_, since⟩) following.2 nested
      simpa using d.tokens_spelled p
  | case6 frames current d p rest ih =>
      rw [List.forall_mem_cons] at following
      exact ih (List.forall_mem_cons.mpr ⟨since, before⟩) (by simp) following.2 nested
  | case8 frame frames current p rest ih =>
      rw [List.forall_mem_cons] at following before
      exact ih before.2 (List.forall_mem_cons.mpr ⟨trivial, before.1⟩) following.2 nested

end Lexer

theorem ofSource_spelled {source : String} {ts : List Token}
    (read : Token.ofSource source = .ok ts) : ∀ t ∈ ts, t.Spelled :=
  Lexer.arrange_spelled (by simp) (by simp) Lexer.lexemesWithin_spelled read

/-! ## Names -/

theorem spelled_moveAllTo {p : Place} {ts : List Token} (spelled : ∀ t ∈ ts, t.Spelled) :
    ∀ t ∈ Token.moveAllTo p ts, t.Spelled := by
  induction ts with
  | nil => exact spelled
  | cons t ts ih =>
      rw [List.forall_mem_cons] at spelled
      rw [Token.moveAllTo, List.forall_mem_cons]
      refine ⟨?_, ih spelled.2⟩
      cases t <;> exact spelled.1

theorem exists_of_bind_ok {ε α β : Type} {x : Except ε α} {f : α → Except ε β} {b : β}
    (answered : x >>= f = .ok b) : ∃ a, x = .ok a ∧ f a = .ok b := by
  cases x with
  | error e => cases answered
  | ok a => exact ⟨a, rfl, answered⟩

/-- What is read from a string literal is read from all tokens of its text, moved to its place. -/
theorem withinLiteral_ok_iff {α : Type} {l : StringLiteral} {p : Grammar → Parser α} {a : α} :
    withinLiteral l p = .ok a ↔ ∃ ts, Token.ofSource l.value = .ok ts ∧
      Parser.onAll (p (.ofTokens false (Token.moveAllTo l.place ts))) (Token.moveAllTo l.place ts)
        l.place = .ok a ∧ suffixOf l = "" := by
  unfold withinLiteral
  cases Token.ofSource l.value with
  | error place =>
      refine iff_of_false nofun ?_
      rintro ⟨ts, lexed, -⟩
      cases lexed
  | ok ts =>
      simp only [Except.ok.injEq, exists_eq_left']
      constructor
      · intro read
        obtain ⟨b, parsed, finished⟩ := exists_of_bind_ok read
        split at finished
        · cases finished
        · rename_i plain
          cases finished
          exact ⟨parsed, by simpa using plain⟩
      · rintro ⟨parsed, plain⟩
        rw [parsed, plain]
        rfl

/-- A name that is read from a string literal is one. -/
theorem isName_of_withinLiteral {l : StringLiteral} {i : Ident}
    (read : withinLiteral l (fun _ => Parser.name) = .ok i) : IsName i.text := by
  obtain ⟨ts, tokens, parsed, -⟩ := withinLiteral_ok_iff.mp read
  obtain ⟨_, parsed, -⟩ := Parser.onAll_ok_iff.mp parsed
  obtain ⟨rest, read, ordinary, -⟩ := Parser.name_ok_iff.mp parsed
  have member : i.token ∈ Token.moveAllTo l.place ts := by
    rw [show Token.moveAllTo l.place ts = _ from read]
    exact List.mem_cons_self
  exact ⟨spelled_moveAllTo (ofSource_spelled tokens) _ member, ordinary⟩

end LogInterface
