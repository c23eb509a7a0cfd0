/-
# Token.Lexer -- from characters to token trees

A lexer in two steps.  `lexemes` cuts the text into words, literals,
punctuation, brackets and doc comments, up to the first place where none of
them stands; `arrange` nests what lies between brackets and turns a doc comment
into the attribute it stands for.  `Token.ofSource` answers the token trees or
the place where reading stopped: a bracket without partner, or the first
character that starts nothing.

The length of each kind of lexeme is its own function on the characters ahead;
`literalLength` tries the literals in their order, and a word comes last.
-/
import LogInterface.Text.Blank
import LogInterface.Text.Escape
import LogInterface.Text.Identifier
import LogInterface.Token.Quoted

namespace LogInterface

open LogInterface.Text

set_option autoImplicit false

namespace Lexer

/-! ## White space and comments -/

/-- Do these characters come next? -/
def startsWith (word : String) (cs : List Char) : Bool := word.toList.isPrefixOf cs

/-- White space of source text: two direction marks count as blank too. -/
def isSpace (c : Char) : Bool := isBlank c || c = '\u200e' || c = '\u200f'

def lineLength : List Char → Nat
  | [] => 0
  | '\n' :: _ => 0
  | '\r' :: '\n' :: _ => 0
  | _ :: cs => lineLength cs + 1

/-- The length of a block comment that is `depth` levels deep, to its end. -/
def blockLength : Nat → List Char → Option Nat
  | depth, '/' :: '*' :: cs => (blockLength (depth + 1) cs).map (· + 2)
  | depth, '*' :: '/' :: cs =>
      if depth ≤ 1 then some 2 else (blockLength (depth - 1) cs).map (· + 2)
  | depth, _ :: cs => (blockLength depth cs).map (· + 1)
  | _, [] => none

/-- The length of the blank or plain comment that comes next. -/
def skipLength (cs : List Char) : Option Nat :=
  if startsWith "//" cs then
    if (startsWith "///" cs && !startsWith "////" cs) || startsWith "//!" cs then none
    else some (lineLength cs)
  else if startsWith "/**/" cs then some 4
  else if startsWith "/*" cs then
    if (startsWith "/**" cs && !startsWith "/***" cs) || startsWith "/*!" cs then none
    else blockLength 0 cs
  else match cs with
    | c :: _ => if isSpace c then some 1 else none
    | [] => none

/-- A doc comment: does it document what it stands in, its text, its length. -/
structure Doc where
  inner : Bool
  text : List Char
  length : Nat

/-- Does every carriage return stand before a line feed? -/
def returnsArePaired : List Char → Bool
  | [] => true
  | '\r' :: '\n' :: cs => returnsArePaired cs
  | '\r' :: _ => false
  | _ :: cs => returnsArePaired cs

/-- The doc comment that comes next. -/
def doc? (cs : List Char) : Option Doc := do
  let line (inner : Bool) : Doc :=
    let n := lineLength (cs.drop 3)
    ⟨inner, (cs.drop 3).take n, n + 3⟩
  let block (inner : Bool) : Option Doc := do
    let n ← blockLength 0 cs
    pure ⟨inner, (cs.drop 3).take (n - 5), n⟩
  let doc ←
    if startsWith "//!" cs then some (line true)
    else if startsWith "/*!" cs then block true
    else if startsWith "///" cs then (if startsWith "////" cs then none else some (line false))
    else if startsWith "/**" cs then (if startsWith "/***" cs then none else block false)
    else none
  if returnsArePaired doc.text then some doc else none

/-! ## Words and literals -/

/-- The length of the identifier that comes next. -/
def identLength (cs : List Char) : Option Nat :=
  match cs with
  | c :: rest => if isIdentStart c then some (1 + (rest.takeWhile isIdentContinue).length) else none
  | [] => none

/-- Words that have no raw form. -/
def neverRaw : List String := ["_", "super", "self", "Self", "crate"]

/-- The length of the identifier that comes next, raw ones included. -/
def anyIdentLength (cs : List Char) : Option Nat :=
  if startsWith "r#" cs then do
    let n ← identLength (cs.drop 2)
    if neverRaw.contains (String.ofList ((cs.drop 2).take n)) then none else some (n + 2)
  else identLength cs

/-- A length and the identifier that follows as a suffix. -/
def withSuffix (cs : List Char) (n : Nat) : Nat := n + (identLength (cs.drop n)).getD 0

/-- A length at which no word goes on. -/
def wordBreak (cs : List Char) (n : Nat) : Option Nat :=
  match cs.drop n with
  | c :: _ => if isIdentContinue c then none else some n
  | [] => some n

/-- The length of a quoted literal whose letters stand before the quote. -/
def quotedLength (letters : String) (form : Quoted.Form) (cs : List Char) : Option Nat :=
  let n := letters.length
  if startsWith (letters ++ "\"") cs then
    (form.bodyLength (cs.drop (n + 1))).map (withSuffix cs <| n + 1 + ·)
  else if startsWith (letters ++ "r") cs then
    (form.rawLengthWithHashes (cs.drop (n + 1))).map (withSuffix cs <| n + 1 + ·)
  else none

/-- The length of one character or escape, up to the closing apostrophe. -/
def quotedCharLength (form : Quoted.Form) (cs : List Char) : Option Nat := do
  let n ← match cs with
    | '\\' :: rest => (form.escapeLength rest).map (· + 1)
    | c :: _ => if form = .bytes && c.toNat ≥ 0x80 then none else some 1
    | [] => none
  match cs.drop n with
  | '\'' :: _ => some (n + 1)
  | _ => none

/-- The length of a character literal whose letters stand before the apostrophe. -/
def charLength (letters : String) (form : Quoted.Form) (cs : List Char) : Option Nat :=
  let n := letters.length
  if startsWith (letters ++ "'") cs then
    (quotedCharLength form (cs.drop (n + 1))).map (withSuffix cs <| n + 1 + ·)
  else none

/-- What ends the digits before an exponent. -/
structure Mantissa where
  length : Nat
  dotted : Bool
  exponent : Bool

/-- One more character before the rest of a mantissa. -/
def Mantissa.longer (m : Mantissa) : Mantissa := { m with length := m.length + 1 }

/-- The digits and the point of a decimal number.  A point before a name or
another point is none. -/
def mantissa? : Bool → List Char → Option Mantissa
  | dotted, [] => some ⟨0, dotted, false⟩
  | dotted, c :: cs =>
      if c.isDigit || c = '_' then (mantissa? dotted cs).map Mantissa.longer
      else if c = '.' then
        if dotted then some ⟨0, dotted, false⟩
        else match cs with
          | d :: _ =>
              if d = '.' || isIdentStart d then none else (mantissa? true cs).map Mantissa.longer
          | [] => some ⟨1, true, false⟩
      else if c = 'e' || c = 'E' then some ⟨1, dotted, true⟩
      else some ⟨0, dotted, false⟩

/-- The length of an exponent after its letter, if it has a digit. -/
def exponentLength : (signed digits : Bool) → List Char → Option Nat
  | _, digits, [] => if digits then some 0 else none
  | signed, digits, c :: cs =>
      if c = '+' || c = '-' then
        if digits then some 0
        else if signed then none
        else (exponentLength true digits cs).map (· + 1)
      else if c.isDigit then (exponentLength signed true cs).map (· + 1)
      else if c = '_' then (exponentLength signed digits cs).map (· + 1)
      else if digits then some 0
      else none

/-- The length of a number with a point or an exponent. -/
def floatLength (cs : List Char) : Option Nat := do
  let first ← cs.head?
  if !first.isDigit then none
  let m ← mantissa? false cs
  let n ←
    if m.exponent then
      match exponentLength false false (cs.drop m.length) with
      | some n => some (m.length + n)
      | none => if m.dotted then some (m.length - 1) else none
    else if m.dotted then some m.length
    else none
  wordBreak cs (withSuffix cs n)

/-- The digits of a whole number: their count, and whether there is one. -/
def digitsLength (base : Nat) : Bool → List Char → Option Nat
  | some?, [] => if some? then some 0 else none
  | some?, c :: cs =>
      if c = '_' then
        if !some? && base == 10 then none else (digitsLength base some? cs).map (· + 1)
      else match Quoted.hexDigit? c with
        | some d =>
            if d < base then (digitsLength base true cs).map (· + 1)
            else if c.isDigit then none
            else if some? then some 0
            else none
        | none => if some? then some 0 else none

/-- The base that the first characters of a number announce. -/
def announcedBase (cs : List Char) : Nat × Nat :=
  match cs with
  | '0' :: 'x' :: _ => (16, 2)
  | '0' :: 'o' :: _ => (8, 2)
  | '0' :: 'b' :: _ => (2, 2)
  | _ => (10, 0)

def intLength (cs : List Char) : Option Nat := do
  let (base, n) := announcedBase cs
  let m ← digitsLength base false (cs.drop n)
  wordBreak cs (withSuffix cs (n + m))

/-- The length of the literal that comes next. -/
def literalLength (cs : List Char) : Option Nat :=
  quotedLength "" .text cs
    <|> quotedLength "b" .bytes cs
    <|> quotedLength "c" .terminated cs
    <|> charLength "b" .bytes cs
    <|> charLength "" .text cs
    <|> floatLength cs
    <|> intLength cs

def isPunct (c : Char) : Bool := "~!@#$%^&*-=+|;:,<.>/?'".toList.contains c

/-- Does punctuation come next, and no comment? -/
def startsPunct (cs : List Char) : Bool :=
  match cs with
  | c :: _ => isPunct c && !startsWith "//" cs && !startsWith "/*" cs
  | [] => false

/-- The spacing of the punctuation character that comes next.  An apostrophe
starts a lifetime and goes together with its name. -/
def punct? (cs : List Char) : Option Spacing :=
  match cs with
  | [] => none
  | '\'' :: rest => do
      let n ← anyIdentLength rest
      match rest.drop n with
      | '\'' :: _ => none
      | '#' :: _ => if startsWith "r#" rest then some .joint else none
      | _ => some .joint
  | _ :: rest => if startsPunct cs then some (if startsPunct rest then .joint else .alone) else none

/-- Starts of literals; a word that starts like one is a broken literal. -/
def literalStarts : List String :=
  ["r\"", "r#\"", "r##", "b\"", "b'", "br\"", "br#", "c\"", "cr\"", "cr#"]

/-- The length of the word that comes next. -/
def wordLength (cs : List Char) : Option Nat :=
  if literalStarts.any (startsWith · cs) then none else anyIdentLength cs

/-! ## Lexemes -/

/-- The pieces of source text that tokens are made of. -/
inductive Lexeme where
  | leaf (token : Token)
  | opening (delimiter : Delimiter) (place : Place)
  | closing (delimiter : Delimiter) (place : Place)
  | doc (comment : Doc) (place : Place)

def opening? (c : Char) : Option Delimiter :=
  [Delimiter.parenthesis, .brace, .bracket].find? (·.opening = c)

def closing? (c : Char) : Option Delimiter :=
  [Delimiter.parenthesis, .brace, .bracket].find? (·.closing = c)

/-- How a literal that could not be read is written. -/
def brokenLiteral : String := "(/*ERROR*/)"

/-- The lexeme at the start of some characters, and its length. -/
def lexeme? (p : Place) (cs : List Char) : Option (Lexeme × Nat) := do
  let c ← cs.head?
  match doc? cs with
  | some doc => some (.doc doc p, doc.length)
  | none =>
    if startsWith brokenLiteral cs then
      some (.leaf (.literal brokenLiteral p), brokenLiteral.length)
    else
      match opening? c, closing? c with
      | some d, _ => some (.opening d p, 1)
      | none, some d => some (.closing d p, 1)
      | none, none =>
        match literalLength cs with
        | some n => some (.leaf (.literal (String.ofList (cs.take n)) p), n)
        | none =>
          match punct? cs with
          | some spacing => some (.leaf (.punct c spacing p), 1)
          | none => do
              let n ← wordLength cs
              some (.leaf (.ident (String.ofList (cs.take n)) p), n)

/-- The lexemes of a text, and where reading stopped before its end.  `fuel`
bounds the number of steps; the length of the text is enough. -/
def lexemesWithin : (fuel : Nat) → Place → List Char → List Lexeme × Option Place
  | _, _, [] => ([], none)
  | 0, p, _ => ([], some p)
  | fuel + 1, p, cs =>
      match skipLength cs with
      | some n => lexemesWithin fuel (p.after (cs.take n)) (cs.drop n)
      | none =>
          match lexeme? p cs with
          | none => ([], some p)
          | some (lexeme, n) =>
              let (rest, stop) := lexemesWithin fuel (p.after (cs.take n)) (cs.drop n)
              (lexeme :: rest, stop)

/-- The lexemes of a text that starts at a place. -/
def lexemes (p : Place) (cs : List Char) : List Lexeme × Option Place :=
  lexemesWithin cs.length p cs

/-! ## Nesting -/

/-- A bracket that waits for its partner, and the tokens before it, last first. -/
structure Frame where
  delimiter : Delimiter
  place : Place
  before : List Token

/-- The attribute that a doc comment stands for. -/
def Doc.tokens (d : Doc) (p : Place) : List Token :=
  let bang := if d.inner then [Token.punct '!' .alone p] else []
  [.punct '#' .alone p] ++ bang ++
    [.group .bracket
      [.ident "doc" p, .punct '=' .alone p, .literal (quotedLiteral (String.ofList d.text)) p]
      p p]

/-- Nests lexemes into token trees.  `current` holds the tokens since the last
open bracket, last first; `stop` is where the lexemes end too early. -/
def arrange (stop : Option Place) :
    List Frame → List Token → List Lexeme → Except Place (List Token)
  | frames, current, [] =>
      match stop, frames with
      | some p, _ => .error p
      | none, frame :: _ => .error frame.place
      | none, [] => .ok current.reverse
  | frames, current, .leaf t :: rest => arrange stop frames (t :: current) rest
  | frames, current, .doc d p :: rest =>
      arrange stop frames ((d.tokens p).reverse ++ current) rest
  | frames, current, .opening d p :: rest => arrange stop (⟨d, p, current⟩ :: frames) [] rest
  | [], _, .closing _ p :: _ => .error p
  | frame :: frames, current, .closing d p :: rest =>
      if d = frame.delimiter then
        arrange stop frames (.group d current.reverse frame.place p :: frame.before) rest
      else .error p

end Lexer

/-- The mark that may stand before a text to tell its byte order. -/
def byteOrderMark : Char := '\ufeff'

/-- The token trees of a text, or the place where reading stopped. -/
def Token.ofSource (source : String) : Except Place (List Token) :=
  let start : Place := ⟨1, 0⟩
  let (place, cs) := match source.toList with
    | c :: cs => if c = byteOrderMark then (start.next c, cs) else (start, c :: cs)
    | [] => (start, [])
  let (lexemes, stop) := Lexer.lexemes place cs
  Lexer.arrange stop [] [] lexemes

end LogInterface
