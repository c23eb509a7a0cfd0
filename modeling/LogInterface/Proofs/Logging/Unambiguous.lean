/-
# Proofs.Logging.Unambiguous -- written fields that can be told apart

The fields of a record are written as names and values with blanks between them, and a text among
the values may hold anything: blanks, equals signs, quotes, ends of lines.  It may look just like
another field.  `text_unambiguous` says that it cannot be taken for one: two field sets that are
written alike have the same number of fields, with the same names and with values that are written
alike.

* A value that is a text or a character stands between quotes, and shows where it ends by itself.
* Every other value has neither blanks nor quotes (`FieldValue.debug_cases`), and ends in front of
  the next blank.
* So what stands behind the first field can be found from the text alone (`behindField_append`),
  and the fields are told apart one by one.
-/
import LogInterface.Proofs.Logging.Sinks
import LogInterface.Proofs.Text.Cut
import LogInterface.Proofs.Text.Escape
import LogInterface.Proofs.Token.Word

namespace LogInterface

open LogInterface.Text LogInterface.Format LogInterface.Number

set_option autoImplicit false

/-! ## Characters that need no quotes -/

/-- Characters without a blank and without quotes. -/
def Bare (cs : List Char) : Prop := ∀ c ∈ cs, c ≠ ' ' ∧ ¬IsQuote c

theorem Bare.append {cs ds : List Char} (first : Bare cs) (second : Bare ds) : Bare (cs ++ ds) :=
  List.forall_mem_append.mpr ⟨first, second⟩

theorem Bare.of_subset {cs ds : List Char} (bare : Bare ds) (subset : cs ⊆ ds) : Bare cs :=
  fun c member => bare c (subset member)

theorem bare_of_isDigit {cs : List Char} (digits : ∀ c ∈ cs, c.isDigit = true) : Bare cs := by
  intro c member
  have digit := digits c member
  refine ⟨?_, ?_⟩
  · rintro rfl
    exact absurd digit (by decide)
  · rintro (rfl | rfl)
    · exact absurd digit (by decide)
    · exact absurd digit (by decide)

instance (cs : List Char) : Decidable (Bare cs) :=
  List.decidableBAll (fun c => c ≠ ' ' ∧ ¬IsQuote c) cs

/-! ## Numbers -/

theorem bare_toDigits (n : Nat) : Bare (Nat.toDigits 10 n) :=
  bare_of_isDigit fun _ member => Nat.isDigit_of_mem_toDigits (by decide) (by decide) member

theorem bare_integer (i : Int) : Bare (Spec.plain.integer i).toList := by
  rw [Spec.integer_plain]
  cases i with
  | ofNat n =>
      rw [Int.repr, Nat.toList_repr]
      exact bare_toDigits n
  | negSucc n =>
      rw [Int.repr, String.toList_append, Nat.toList_repr]
      exact Bare.append (by decide) (bare_toDigits _)

theorem bare_zeros (n : Nat) : Bare (zeros n) := by
  intro c member
  obtain rfl := List.eq_of_mem_replicate member
  exact (by decide : '0' ≠ ' ' ∧ ¬IsQuote '0')

theorem bare_joined {whole places : List Char} (first : Bare whole) (second : Bare places)
    (least : Nat) : Bare (joined whole places least) := by
  unfold joined
  dsimp only
  split
  · exact first
  · have point : Bare ['.'] := by decide
    exact first.append (point.append (second.append (bare_zeros _)))

/-- A decimal without an exponent needs no quotes. -/
theorem bare_positional {d : Decimal} (digits : Bare d.digits) (least : Nat) :
    Bare (d.positional least) := by
  unfold Decimal.positional
  split
  · exact bare_joined (by decide) ((bare_zeros _).append digits) least
  · refine bare_joined (Bare.append ?_ (bare_zeros _)) ?_ least
    · exact digits.of_subset (List.take_subset _ _)
    · exact digits.of_subset (List.drop_subset _ _)

theorem bare_withoutZeros {cs : List Char} (bare : Bare cs) : Bare (withoutZeros cs) := by
  refine bare.of_subset fun c member => ?_
  rw [withoutZeros, List.mem_reverse] at member
  exact List.mem_reverse.mp (List.dropWhile_subset _ member)

theorem bare_shortest (f : BinaryFormat) (m : Nat) (q : Int) : Bare (shortest f m q).digits := by
  unfold shortest
  split
  · decide
  · exact bare_withoutZeros (bare_toDigits _)

/-- A number in double precision, be it none at all, needs no quotes. -/
theorem bare_floatText (bits : Nat) :
    Bare (floatText binary64 plainStyle .plain bits).toList := by
  have sign (negative : Bool) : Bare (Spec.plain.sign negative) := by
    cases negative <;> decide
  rw [floatText, String.toList_ofList]
  cases binary64.decode bits with
  | nan => decide
  | infinite negative => exact (sign negative).append (by decide)
  | finite negative m q => exact (sign negative).append (bare_positional (bare_shortest _ m q) 0)

/-! ## Values -/

namespace FieldValue

/-- Is the value written by itself?  Values that the caller formats, and paths, can be written in
any way. -/
def isScalar : FieldValue → Bool
  | .displayed _ | .debugged _ | .path _ => false
  | _ => true

/-- A value is written between quotes, or needs none. -/
theorem debug_cases {v : FieldValue} (scalar : v.isScalar = true) :
    (∃ quote, IsQuote quote ∧ ∃ cs : List Char,
      (v.debug .plain).toList = quote :: (cs.flatMap (escapeChar quote) ++ [quote])) ∨
      Bare (v.debug .plain).toList := by
  cases v with
  | str s => exact .inl ⟨'"', .inl rfl, s.toList, String.toList_ofList⟩
  | char c =>
      refine .inl ⟨'\'', .inr rfl, [c], ?_⟩
      rw [List.flatMap_singleton]
      exact String.toList_ofList
  | i64 v => exact .inr (bare_integer _)
  | u64 v => exact .inr (bare_integer _)
  | i128 v => exact .inr (bare_integer _)
  | u128 v => exact .inr (bare_integer _)
  | f64 bits => exact .inr (bare_floatText _)
  | bool b => exact .inr (by cases b <;> decide)
  | absent => exact .inr (by decide)
  | displayed d => cases scalar
  | debugged d => cases scalar
  | path bytes => cases scalar

end FieldValue

/-- What stands behind a value: behind its closing quote, or from the next blank on. -/
def behindValue : List Char → Option (List Char)
  | [] => some []
  | c :: cs =>
      if IsQuote c then behindQuote c cs else some ((c :: cs).dropWhile (· ≠ ' '))

/-- What can stand behind a field: the next one, behind a blank, or nothing. -/
def Follows (rest : List Char) : Prop := ∀ c, rest.head? = some c → c = ' '

theorem behindValue_bare {cs rest : List Char} (bare : Bare cs) (follows : Follows rest) :
    behindValue (cs ++ rest) = some rest := by
  have blank : rest.dropWhile (· ≠ ' ') = rest := by
    cases rest with
    | nil => rfl
    | cons c rest => exact List.dropWhile_cons_of_neg (by simpa using follows c rfl)
  have dropped : (cs ++ rest).dropWhile (· ≠ ' ') = rest := by
    rw [List.dropWhile_append_of_pos fun c member => by simpa using (bare c member).1, blank]
  cases shape : cs ++ rest with
  | nil =>
      rw [(List.append_eq_nil_iff.mp shape).2]
      rfl
  | cons c others =>
      have unquoted : ¬IsQuote c := by
        cases cs with
        | cons d cs =>
            obtain ⟨rfl, -⟩ := List.cons.inj shape
            exact (bare d List.mem_cons_self).2
        | nil =>
            obtain rfl := follows c (congrArg List.head? shape)
            decide
      rw [behindValue, if_neg unquoted, ← shape, dropped]

/-- **A value shows where it ends.** -/
theorem behindValue_debug {v : FieldValue} (scalar : v.isScalar = true) {rest : List Char}
    (follows : Follows rest) : behindValue ((v.debug .plain).toList ++ rest) = some rest := by
  rcases FieldValue.debug_cases scalar with ⟨quote, isQuote, cs, quoted⟩ | bare
  · rw [quoted, List.cons_append, behindValue, if_pos isQuote, List.append_assoc]
    exact behindQuote_escaped isQuote cs rest
  · exact behindValue_bare bare follows

/-! ## Fields -/

def Field.chars (f : Field) : List Char := f.name.toList ++ '=' :: (f.value.debug .plain).toList

/-- A field that can be told apart from what follows it. -/
structure Field.Telling (f : Field) : Prop where
  name : IsIdentifier f.name.toList
  value : f.value.isScalar = true

/-- What is written of a field, by itself. -/
def Field.shown (f : Field) : String × String := (f.name, f.value.debug .plain)

theorem Field.Telling.not_equals {f : Field} (telling : f.Telling) : '=' ∉ f.name.toList :=
  telling.name.notMem (by decide) (by decide) (by decide)

def behindField (cs : List Char) : Option (List Char) :=
  behindValue (cs.dropWhile (· ≠ '=')).tail

/-- **A field shows where it ends.** -/
theorem behindField_append {f : Field} (telling : f.Telling) {rest : List Char}
    (follows : Follows rest) : behindField (f.chars ++ rest) = some rest := by
  have free := telling.not_equals
  rw [behindField, Field.chars, List.append_assoc, List.cons_append, dropWhile_append_stop free,
    List.tail_cons]
  exact behindValue_debug telling.value follows

/-- Fields that are written alike have the same name and a value that is written alike. -/
theorem Field.shown_of_chars {f g : Field} (first : f.Telling) (second : g.Telling)
    (same : f.chars = g.chars) : f.shown = g.shown := by
  have values : '=' :: (f.value.debug .plain).toList = '=' :: (g.value.debug .plain).toList :=
    calc
      _ = f.chars.dropWhile (· ≠ '=') := (dropWhile_append_stop first.not_equals _).symm
      _ = g.chars.dropWhile (· ≠ '=') := by rw [same]
      _ = _ := dropWhile_append_stop second.not_equals _
  have names : f.name.toList = g.name.toList := by
    rw [Field.chars, Field.chars, values] at same
    exact List.append_cancel_right same
  exact Prod.ext (String.toList_inj.mp names) (String.toList_inj.mp (List.cons.inj values).2)

/-! ## Field sets -/

/-- Fields as they are written behind another one. -/
def furtherChars (fields : List Field) : List Char := fields.flatMap fun f => ' ' :: f.chars

theorem follows_furtherChars (fields : List Field) : Follows (furtherChars fields) := by
  intro c first
  cases fields with
  | nil => cases first
  | cons f fields => exact (Option.some.inj first).symm

/-- **Fields that are written alike, behind another one, are the same by themselves.**  Both sets
start with a field, or neither does; what stands behind the two is found in the same way in both. -/
theorem shown_of_furtherChars {fs gs : List Field} (first : ∀ f ∈ fs, f.Telling)
    (second : ∀ g ∈ gs, g.Telling) (same : furtherChars fs = furtherChars gs) :
    fs.map Field.shown = gs.map Field.shown := by
  induction fs generalizing gs with
  | nil =>
      cases gs with
      | nil => rfl
      | cons g gs => cases same
  | cons f fs ih =>
      cases gs with
      | nil => cases same
      | cons g gs =>
          obtain ⟨tellingF, tellingFs⟩ := List.forall_mem_cons.mp first
          obtain ⟨tellingG, tellingGs⟩ := List.forall_mem_cons.mp second
          have fields : f.chars ++ furtherChars fs = g.chars ++ furtherChars gs :=
            (List.cons.inj same).2
          have rest : furtherChars fs = furtherChars gs := by
            have behindF := behindField_append tellingF (follows_furtherChars fs)
            have behindG := behindField_append tellingG (follows_furtherChars gs)
            rw [fields] at behindF
            exact Option.some.inj (behindF.symm.trans behindG)
          have chars : f.chars = g.chars := by
            rw [rest] at fields
            exact List.append_cancel_right fields
          rw [List.map_cons, List.map_cons, Field.shown_of_chars tellingF tellingG chars,
            ih tellingFs tellingGs rest]

/-- Only the first field stands behind no blank. -/
theorem toList_text_cons (f : Field) (fields : List Field) :
    (" ".intercalate ((f :: fields).map fun f => f.name ++ "=" ++ f.value.debug .plain)).toList
      = f.chars ++ furtherChars fields := by
  have written (f : Field) : (f.name ++ "=" ++ f.value.debug .plain).toList = f.chars := by
    rw [String.toList_append, String.toList_append, List.append_assoc]
    rfl
  rw [String.toList_intercalate, List.map_map]
  induction fields generalizing f with
  | nil =>
      rw [List.map_singleton, List.intercalate_singleton, furtherChars, List.flatMap_nil,
        List.append_nil]
      exact written f
  | cons g fields ih =>
      have behind : furtherChars (g :: fields) = ' ' :: (g.chars ++ furtherChars fields) := rfl
      have first : (String.toList ∘ fun f : Field => f.name ++ "=" ++ f.value.debug .plain) f
          = f.chars := written f
      rw [List.map_cons, List.map_cons, List.intercalate_cons_cons, ← List.map_cons, ih g, behind,
        first, List.append_assoc]
      rfl

/-- A set is written as nothing if it is empty; otherwise it is written, behind a blank, as its
fields are behind another one. -/
theorem text_cases (fs : FieldSet) :
    (fs.toList = [] ∧ fs.text.toList = []) ∨
      (fs.text.toList ≠ [] ∧ furtherChars fs.toList = ' ' :: fs.text.toList) := by
  rw [FieldSet.text]
  cases fs.toList with
  | nil => exact .inl ⟨rfl, rfl⟩
  | cons f fields =>
      rw [toList_text_cons]
      refine .inr ⟨fun empty => ?_, rfl⟩
      have name : f.name.toList ++ '=' :: _ = [] := (List.append_eq_nil_iff.mp empty).1
      cases (List.append_eq_nil_iff.mp name).2

theorem furtherChars_of_text {a b : FieldSet} (same : a.text = b.text) :
    furtherChars a.toList = furtherChars b.toList := by
  rcases text_cases a with ⟨emptyA, textA⟩ | ⟨filledA, shownA⟩
  · rcases text_cases b with ⟨emptyB, textB⟩ | ⟨filledB, shownB⟩
    · rw [emptyA, emptyB]
    · exact absurd (same ▸ textA) filledB
  · rcases text_cases b with ⟨emptyB, textB⟩ | ⟨filledB, shownB⟩
    · exact absurd (same ▸ textB) filledA
    · rw [shownA, shownB, same]

/-- A set that says how many fields it has, and of which every field can be told apart. -/
structure FieldSet.Telling (fs : FieldSet) : Prop where
  lawful : fs.Lawful
  fields : ∀ i f, fs.field i = some f → f.Telling

theorem FieldSet.Telling.toList {fs : FieldSet} (telling : fs.Telling) :
    ∀ f ∈ fs.toList, f.Telling := by
  intro f member
  obtain ⟨i, atIndex⟩ := List.mem_iff_getElem?.mp member
  rw [telling.lawful.toList_getElem?] at atIndex
  exact telling.fields i f atIndex

/-- **Written fields can be told apart.**  Two field sets with identifiers for names that are
written alike have as many fields, and under each index a field of the same name with a value that
is written alike.  So a text among the values, whatever it is, stands for one value and for no
further field. -/
theorem text_unambiguous {a b : FieldSet} (first : a.Telling) (second : b.Telling)
    (same : a.text = b.text) :
    a.length = b.length ∧ ∀ i, (a.field i).map Field.shown = (b.field i).map Field.shown := by
  have shown : a.toList.map Field.shown = b.toList.map Field.shown :=
    shown_of_furtherChars first.toList second.toList (furtherChars_of_text same)
  constructor
  · have lengths := congrArg List.length shown
    rw [List.length_map, List.length_map] at lengths
    rw [← first.lawful.length_toList, ← second.lawful.length_toList, lengths]
  · intro i
    have atIndex := congrArg (fun fields : List (String × String) => fields[i]?) shown
    simp only [List.getElem?_map] at atIndex
    rw [← first.lawful.toList_getElem?, ← second.lawful.toList_getElem?]
    exact atIndex

namespace Sample

/-- A text that looks like the end of a value and another field, and a number. -/
def lookalike (number : FieldValue) : FieldSet :=
  ⟨2, [some ⟨"host", .str "a\" port=\"b", none⟩, some ⟨"port", number, none⟩]⟩

theorem lookalike_telling {number : FieldValue} (scalar : number.isScalar = true) :
    (lookalike number).Telling where
  lawful := FieldSet.lawful_ofFields
    [⟨"host", .str "a\" port=\"b", none⟩, ⟨"port", number, none⟩]
  fields i f atIndex := by
    have host : IsIdentifier "host".toList := .plain (by decide)
    have port : IsIdentifier "port".toList := .plain (by decide)
    match i with
    | 0 =>
        cases atIndex
        exact ⟨host, rfl⟩
    | 1 =>
        cases atIndex
        exact ⟨port, scalar⟩
    | i + 2 => cases atIndex

end Sample

/-- A number with a sign is written like one without. -/
theorem text_unambiguous_lookalike :
    (Sample.lookalike (.i64 8080)).Telling ∧ (Sample.lookalike (.u64 8080)).Telling ∧
      (Sample.lookalike (.i64 8080)).text = (Sample.lookalike (.u64 8080)).text ∧
      ∀ i, ((Sample.lookalike (.i64 8080)).field i).map Field.shown
        = ((Sample.lookalike (.u64 8080)).field i).map Field.shown := by
  have first : (Sample.lookalike (.i64 8080)).Telling := Sample.lookalike_telling rfl
  have second : (Sample.lookalike (.u64 8080)).Telling := Sample.lookalike_telling rfl
  have same : (Sample.lookalike (.i64 8080)).text = (Sample.lookalike (.u64 8080)).text := by
    decide +kernel
  exact ⟨first, second, same, (text_unambiguous first second same).2⟩

end LogInterface
