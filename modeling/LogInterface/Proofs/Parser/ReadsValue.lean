/-
# Proofs.Parser.ReadsValue -- operands and expressions are read

The expressions of generated source have hardly any operators: an operand is a path, a literal or a
bracket, with signs in front of it and with calls, fields and question marks behind it, and then it
ends, at a comma, a semicolon or the block of a condition (`ValueEnd`).  `IsValue n structs ts`
says that every grammar that nests `n` deep reads such an operand; `structs` tells whether struct
literals are allowed.
-/
import LogInterface.Proofs.Parser.ReadsType

namespace LogInterface.Parser

set_option autoImplicit false

variable {ts us rest : List Token} {g : Grammar} {i : Ident} {n : Nat} {structs : Bool}

/-! ## What follows -/

/-- No expression goes on with what comes next. -/
structure ValueEnd (structs : Bool) (ts : List Token) : Prop where
  colons : startsOperator "::" ts = false
  bang : startsOperator "!" ts = false
  sharp : startsOperator "#" ts = false
  point : startsOperator "." ts = false
  question : startsOperator "?" ts = false
  round : startsGroup .parenthesis ts = false
  square : startsGroup .bracket ts = false
  braces : (structs && startsGroup .brace ts) = false
  word : startsAnyWord ts = false
  operator : operatorAhead? ts = none

namespace ValueEnd

theorem nothing : ValueEnd structs [] := by
  constructor <;> first | rfl | cases structs <;> rfl

theorem comma (us : List Token) : ValueEnd structs (Token.operator "," ++ us) := by
  constructor <;> first | rfl | cases structs <;> rfl

theorem semicolon (us : List Token) : ValueEnd structs (Token.operator ";" ++ us) := by
  constructor <;> first | rfl | cases structs <;> rfl

/-- Where no struct literals are allowed a block can follow. -/
theorem block (content us : List Token) (opens closes : Place) :
    ValueEnd false (.group .brace content opens closes :: us) := by
  constructor <;> rfl

end ValueEnd

/-! ## How an operand starts -/

/-- An expression comes next, and no other statement. -/
structure ExpressionAhead (ts : List Token) : Prop where
  sharp : startsOperator "#" ts = false
  noLet : startsWord "let" ts = false
  item : startsItem ts = false
  /-- What stands behind a plain path makes no macro call of it. -/
  call : behindPath.ReadsAs [] ts (startsOperator "!" · = false)

/-- An operand comes next that starts with no block. -/
structure ValueAhead (ts : List Token) : Prop extends ExpressionAhead ts where
  some : ts ≠ []
  semicolon : startsOperator ";" ts = false
  point : startsOperator "." ts = false
  question : startsOperator "?" ts = false
  raw : (startsWord "raw" ts && startsOneOf ["mut", "const"] (skip ts)) = false
  noMut : startsWord "mut" ts = false
  block : startsBlockLike ts = false

/-- Every grammar that nests this deep reads the tokens as an operand. -/
structure IsValue (n : Nat) (structs : Bool) (ts : List Token) : Prop where
  ahead : ∀ us, ValueEnd structs us → ValueAhead (ts ++ us)
  read : ∀ g : Grammar, g.Deep n → ∀ us, ValueEnd structs us →
    (g.unary structs).ReadsAs ts us (·.isRange = false)

theorem IsValue.mono {m : Nat} (value : IsValue m structs ts) (less : m ≤ n) :
    IsValue n structs ts :=
  ⟨value.ahead, fun g deep => value.read g (deep.mono less)⟩

/-! ## Expressions -/

theorem reads_operatorsBehind {base : Nat} {e : Tree} (ends : ValueEnd structs rest) :
    (operatorsBehind g structs base e).ReadsAs [] rest (· = e) := by
  refine .steps (.ahead ?_)
  simp only [List.nil_append, ends.operator]
  exact .pure rfl

/-- An expression is an operand at its end. -/
theorem IsValue.expression (value : IsValue n structs ts) (deep : g.Deep (n + 1))
    (ends : ValueEnd structs rest) : (g.expression structs).Reads ts rest := by
  obtain ⟨g, rfl, below⟩ := deep.inner
  exact (value.read g below rest ends).last fun _ _ => (reads_operatorsBehind ends).reads

theorem IsValue.whole (value : IsValue n true ts) (deep : g.Deep (n + 1))
    (ends : ValueEnd true rest) : (whole g).Reads ts rest :=
  (value.expression deep ends).done

/-- Expressions with commas between them are read to the end of a group. -/
theorem reads_values {trailing : Bool} {xs : List (List Token)}
    (each : ∀ x ∈ xs, IsValue n true x) (deep : g.Deep (n + 1)) :
    (commaSeparated (whole g)).Reads (commaTokens trailing xs) [] :=
  reads_commaSeparated (ValueEnd true) .nothing .comma fun x member =>
    ⟨fun none => ((each x member).ahead [] .nothing).some (by rw [none]; rfl),
      fun _ ends => (each x member).whole deep ends⟩

/-! ## What follows an operand -/

/-- Calls, methods and question marks, or a field at the end. -/
inductive IsTail (n : Nat) : List Token → Prop where
  | none : IsTail n []
  | call {xs : List (List Token)} {ts : List Token} (trailing : Bool) (opens closes : Place) :
      (∀ x ∈ xs, IsValue n true x) → IsTail n ts →
        IsTail n (.group .parenthesis (commaTokens trailing xs) opens closes :: ts)
  | method {i : Ident} {xs : List (List Token)} {ts : List Token} (trailing : Bool)
      (p opens closes : Place) : i.text ∉ keywords → (∀ x ∈ xs, IsValue n true x) → IsTail n ts →
        IsTail n (.punct '.' .alone p :: i.token
          :: .group .parenthesis (commaTokens trailing xs) opens closes :: ts)
  | field {i : Ident} (p : Place) : i.text ∉ keywords → IsTail n [.punct '.' .alone p, i.token]
  | mark {ts : List Token} (p : Place) : IsTail n ts → IsTail n (.punct '?' .alone p :: ts)

theorem reads_fieldName (ordinary : i.text ∉ keywords) :
    fieldName.ReadsAs [i.token] rest (· = .token i.token) :=
  .ahead (.pos (startsName_token ordinary rest)
    ((reads_name ordinary).answer (by rintro _ rfl; rfl)))

section

variable {trailing : Bool} {xs : List (List Token)} {opens closes : Place} {receiver : Tree}
  {point : List Tree}

theorem reads_argumentList (each : ∀ x ∈ xs, IsValue n true x) (deep : g.Deep (n + 1)) :
    (argumentList g).Reads [.group .parenthesis (commaTokens trailing xs) opens closes] rest :=
  reads_grouped (reads_values each deep)

theorem reads_method (ordinary : i.text ∉ keywords) (each : ∀ x ∈ xs, IsValue n true x)
    (deep : g.Deep (n + 1)) : (behindPoint g receiver point).ReadsAs
      [i.token, .group .parenthesis (commaTokens trailing xs) opens closes] rest
      (·.isRange = false) := by
  refine .ahead (.here fun _ => .neg rfl (.ahead (.neg ?_ (.ahead ?_))))
  · exact startsWord_name ordinary (by decide) _
  refine .bind (t := [i.token]) (reads_fieldName ordinary) ?_
  rintro _ rfl
  refine .ahead (.neg (Bool.and_false _) (.given (.ahead (.pos ?_ ?_))))
  · show (startsName (i.token :: _) && _) = true
    rw [startsName_token ordinary]
    rfl
  · exact (reads_argumentList each deep).answer fun _ _ => rfl

theorem reads_field (ordinary : i.text ∉ keywords) (ends : ValueEnd structs rest) :
    (behindPoint g receiver point).ReadsAs [i.token] rest (·.isRange = false) := by
  refine .ahead (.here fun _ => .neg rfl (.ahead (.neg ?_ (.ahead ?_))))
  · exact startsWord_name ordinary (by decide) _
  refine .last (reads_fieldName ordinary) ?_
  rintro _ rfl
  refine .ahead (.neg ?_ (.given (.ahead (.neg ?_ (.pure rfl)))))
  · show (_ && startsOperator "::" rest) = false
    rw [ends.colons, Bool.and_false]
  · show (_ && (!Tree.absent.isAbsent || startsGroup .parenthesis rest)) = false
    rw [ends.round]
    exact Bool.and_false _

end

theorem reads_noTrailer {fuel : Nat} {e : Tree} (ends : ValueEnd structs rest)
    (noRange : e.isRange = false) : (trailers g fuel e).ReadsAs [] rest (·.isRange = false) := by
  cases fuel with
  | zero => exact .pure noRange
  | succ fuel =>
      have point :
          (startsOperator "." rest && !startsOperator ".." rest && !e.isRange) = false := by
        rw [ends.point]
        rfl
      have question : (startsOperator "?" rest && !e.isRange) = false := by
        rw [ends.question]
        rfl
      exact .ahead (.neg ends.round (.neg point (.neg ends.square (.neg question (.pure noRange)))))

theorem reads_trailers {fuel : Nat} {e : Tree} (tail : IsTail n us) (deep : g.Deep (n + 1))
    (ends : ValueEnd structs rest) (enough : us.length ≤ fuel) (noRange : e.isRange = false) :
    (trailers g fuel e).ReadsAs us rest (·.isRange = false) := by
  induction tail generalizing fuel e with
  | none => exact reads_noTrailer ends noRange
  | call trailing opens closes each _ ih =>
      obtain ⟨fuel, rfl⟩ := Nat.exists_eq_succ_of_ne_zero (Nat.ne_zero_of_lt enough)
      refine .ahead (.pos rfl ?_)
      exact .next (t := [_]) (reads_argumentList each deep) fun _ =>
        ih (Nat.le_of_succ_le_succ enough) rfl
  | @method i xs ts trailing p opens closes ordinary each _ ih =>
      obtain ⟨fuel, rfl⟩ := Nat.exists_eq_succ_of_ne_zero (Nat.ne_zero_of_lt enough)
      refine .ahead (.neg rfl (.pos (by rw [noRange]; rfl) ?_))
      refine .next (t := [_]) (reads_operatorTrees rfl rfl) fun _ => ?_
      refine .bind (t := [_, _]) (reads_method ordinary each deep) fun _ noRange => ih ?_ noRange
      simp only [List.length_cons] at enough
      omega
  | field p ordinary =>
      obtain ⟨fuel, rfl⟩ := Nat.exists_eq_succ_of_ne_zero (Nat.ne_zero_of_lt enough)
      refine .ahead (.neg rfl (.pos (by rw [noRange]; rfl) ?_))
      refine .next (t := [_]) (reads_operatorTrees rfl rfl) fun _ => ?_
      exact .last (reads_field ordinary ends) fun _ noRange => reads_noTrailer ends noRange
  | mark p _ ih =>
      obtain ⟨fuel, rfl⟩ := Nat.exists_eq_succ_of_ne_zero (Nat.ne_zero_of_lt enough)
      refine .ahead (.neg rfl (.neg rfl (.neg rfl (.pos (by rw [noRange]; rfl) ?_))))
      exact .next (t := [_]) (reads_operatorTrees rfl rfl) fun _ =>
        ih (Nat.le_of_succ_le_succ enough) rfl

/-! ## Paths -/

/-- Behind a path of an expression comes no more of it, nor a macro call or a struct literal. -/
structure PathEnd (structs : Bool) (ts : List Token) : Prop where
  colons : startsOperator "::" ts = false
  bang : startsOperator "!" ts = false
  sharp : startsOperator "#" ts = false
  braces : (structs && startsGroup .brace ts) = false
  word : startsAnyWord ts = false

theorem IsTail.pathEnd (tail : IsTail n us) (ends : ValueEnd structs rest) :
    PathEnd structs (us ++ rest) := by
  cases tail with
  | none => exact ⟨ends.colons, ends.bang, ends.sharp, ends.braces, ends.word⟩
  | call | method | field | mark => exact ⟨rfl, rfl, rfl, Bool.and_false _, rfl⟩

theorem startsWord_of_noWord (noWord : startsAnyWord ts = false) (w : String) :
    startsWord w ts = false := by
  unfold startsWord
  cases ts with
  | nil => rfl
  | cons t ts => cases t <;> first | rfl | cases noWord

theorem startsName_of_noWord (noWord : startsAnyWord ts = false) : startsName ts = false := by
  unfold startsName
  cases ts with
  | nil => rfl
  | cons t ts => cases t <;> first | rfl | cases noWord

theorem behindPath_of_written {path : PlainPath} (written : path.Written ts)
    (colons : startsOperator "::" rest = false) (bang : startsOperator "!" rest = false) :
    behindPath.ReadsAs [] (ts ++ rest) (startsOperator "!" · = false) := by
  rintro s (tokens : s.tokens = ts ++ rest)
  refine ⟨rest, bang, ?_⟩
  have read := plainPath_of_written written (Bool.eq_false_iff.mp colons) tokens
  have attempted : attempt (do let _ ← plainPath; ahead) s = .ok (some rest, s.facing rest) := by
    rw [attempt, bind_of_ok read]
    rfl
  rw [behindPath, get_bind, bind_of_ok attempted, set_bind, ← tokens]
  rfl

/-- Where no path comes next nothing stands behind it. -/
theorem behindPath_of_error (fails : Refuses plainPath ts) :
    behindPath.ReadsAs [] ts (startsOperator "!" · = false) := by
  rintro s (tokens : s.tokens = ts)
  refine ⟨[], rfl, ?_⟩
  obtain ⟨e, failed⟩ := fails s tokens
  have attempted : attempt (do let _ ← plainPath; ahead) s = .ok (none, s) := by
    rw [attempt, bind_of_error failed]
  rw [behindPath, get_bind, bind_of_ok attempted, set_bind, ← tokens]
  rfl

theorem PathAhead.noBlock (ahead : PathAhead ts) : startsBlockLike ts = false := by
  have first : startsOneOf ["if", "while", "loop", "match", "unsafe"] ts = false :=
    ahead.noneOf (by decide)
  have second : startsOneOf ["try", "const"] ts = false := ahead.noneOf (by decide)
  have loop : startsWord "for" ts = false := ahead.noWord (by decide)
  simp [startsBlockLike, first, second, loop, ahead.noGroup, ahead.noLifetime]

/-- What starts an item is a keyword, or a word with another one behind it. -/
theorem PathAhead.noItem (ahead : PathAhead ts)
    (crate : (startsWord "crate" ts && !startsOperator "::" (skip ts)) = false)
    (noWord : startsAnyWord (skip ts) = false) : startsItem ts = false := by
  have first : startsOneOf ["pub", "extern", "use", "fn", "mod", "type", "struct", "enum", "trait",
      "impl", "macro"] ts = false := ahead.noneOf (by decide)
  have noStatic : startsWord "static" ts = false := ahead.noWord (by decide)
  have noConst : startsWord "const" ts = false := ahead.noWord (by decide)
  have noUnsafe : startsWord "unsafe" ts = false := ahead.noWord (by decide)
  have noAsync : startsWord "async" ts = false := ahead.noWord (by decide)
  have impl : startsOneOf ["unsafe", "impl"] (skip ts) = false :=
    List.any_eq_false.mpr fun w _ => Bool.eq_false_iff.mp (startsWord_of_noWord noWord w)
  simp [startsItem, first, crate, noStatic, noConst, noUnsafe, noAsync,
    startsName_of_noWord noWord, startsWord_of_noWord noWord, impl]

/-- Behind the first word of a path come two colons, or what follows the path. -/
theorem IsPathTo.skip_cases (path : IsPathTo i ts) :
    ts = [i.token] ∨ ∀ us, startsAnyWord (skip (ts ++ us)) = false ∧
      (startsWord "crate" (ts ++ us) && !startsOperator "::" (skip (ts ++ us))) = false := by
  obtain ⟨path, written, last⟩ := path
  cases written with
  | relative written =>
      cases written with
      | last => cases last; exact .inl rfl
      | cons =>
          exact .inr fun us => ⟨rfl, Bool.and_eq_false_iff.mpr (.inr
            (by simp [skip, Ident.token, startsColons]))⟩
  | rooted => exact .inr fun us => ⟨rfl, rfl⟩

theorem IsPathTo.valueAhead (path : IsPathTo i ts) (other : i.text ≠ "crate")
    (ends : PathEnd structs us) : ValueAhead (ts ++ us) := by
  obtain ⟨plain, written, last⟩ := id path
  have ahead := written.ahead us
  have behind : startsAnyWord (skip (ts ++ us)) = false ∧
      (startsWord "crate" (ts ++ us) && !startsOperator "::" (skip (ts ++ us))) = false := by
    obtain rfl | more := path.skip_cases
    · refine ⟨ends.word, Bool.and_eq_false_iff.mpr (.inl (startsWord_token other _))⟩
    · exact more us
  exact {
    some := fun none => written.ne_nil.2 (List.append_eq_nil_iff.mp none).1
    sharp := ahead.noOperator rfl (by decide)
    semicolon := ahead.noOperator rfl (by decide)
    point := ahead.noOperator rfl (by decide)
    question := ahead.noOperator rfl (by decide)
    raw := by
      refine Bool.and_eq_false_iff.mpr (.inr ?_)
      exact List.any_eq_false.mpr fun w _ => Bool.eq_false_iff.mp (startsWord_of_noWord behind.1 w)
    noMut := ahead.noWord (by decide)
    noLet := ahead.noWord (by decide)
    item := ahead.noItem behind.2 behind.1
    block := ahead.noBlock
    call := behindPath_of_written written ends.colons ends.bang }

theorem PathAhead.noClosure (ahead : PathAhead ts) : startsClosure ts = false := by
  have moved : startsOneOf ["move", "static"] ts = false := ahead.noneOf (by decide)
  have noFor : startsWord "for" ts = false := ahead.noWord (by decide)
  have noConst : startsWord "const" ts = false := ahead.noWord (by decide)
  have noAsync : startsWord "async" ts = false := ahead.noWord (by decide)
  have bar : startsOperator "|" ts = false := ahead.noOperator rfl (by decide)
  simp [startsClosure, moved, noFor, noConst, noAsync, bar]

theorem noSign_of (star : startsOperator "*" ts = false) (bang : startsOperator "!" ts = false)
    (minus : startsOperator "-" ts = false) :
    ∀ op ∈ unaryOperators, startsOperator op ts = false := by
  simp only [unaryOperators, List.forall_mem_cons]
  exact ⟨star, bang, minus, fun _ none => absurd none List.not_mem_nil⟩

theorem PathAhead.noSign (ahead : PathAhead ts) :
    ∀ op ∈ unaryOperators, startsOperator op ts = false :=
  noSign_of (ahead.noOperator rfl (by decide)) (ahead.noOperator rfl (by decide))
    (ahead.noOperator rfl (by decide))

/-- A path, or a struct literal behind it where one is allowed. -/
theorem reads_operandOfPath {literal : List Token} (path : IsPath ts)
    (colons : startsOperator "::" (literal ++ rest) = false)
    (sharp : startsOperator "#" (literal ++ rest) = false)
    (others : ∀ p, ReadsAs (do
      let ts ← Parser.ahead
      if startsBang ts && isPlainPath p then invocationOf p
      else if structs && startsGroup .brace ts then
        return .node .structExpr [p, ← grouped .brace do fieldValues g (← steps)]
      else return .node .pathExpr [p]) literal rest (·.isRange = false)) :
    (operand g structs).ReadsAs (ts ++ literal) rest (·.isRange = false) := by
  obtain ⟨_, written⟩ := id path
  have ahead := written.ahead (literal ++ rest)
  have noAsync : startsWord "async" (ts ++ (literal ++ rest)) = false := ahead.noWord (by decide)
  rw [← List.append_assoc] at ahead noAsync
  have qualified : (qualifiedPath g true).Reads ts (literal ++ rest) :=
    .ahead (.neg (written.ahead _ |>.noOperator rfl (by decide))
      (reads_plainPath path colons fun h => Bool.noConfusion h).done)
  refine .ahead (.neg ?_ (.neg ?_ (.neg ahead.noClosure (.neg ?_ (.pos ?_ ?_)))))
  · rw [ahead.noLiteral]
    rfl
  · rw [startsAsyncBlock, noAsync]
    rfl
  · rw [List.append_assoc]
    exact written.noBuiltin sharp
  · rw [startsPathOperand, ahead.startsPath]
    rfl
  · unfold pathOperand
    exact .next qualified others

theorem reads_pathOperand (path : IsPath ts) (ends : PathEnd structs rest) :
    (operand g structs).ReadsAs ts rest (·.isRange = false) := by
  rw [← List.append_nil ts]
  refine reads_operandOfPath path ends.colons ends.sharp fun p => .ahead (.neg ?_ ?_)
  · show (startsOperator "!" rest && _ && _) = false
    rw [ends.bang]
    rfl
  · exact .neg ends.braces (.pure rfl)

/-- An operand without signs or attributes in front of it, and what follows it. -/
theorem reads_unsigned (first : (operand g structs).ReadsAs ts (us ++ rest) (·.isRange = false))
    (tail : IsTail n us) (deep : g.Deep (n + 1)) (ends : ValueEnd structs rest)
    (sharp : startsOperator "#" (ts ++ us ++ rest) = false)
    (ampersand : startsOperator "&" (ts ++ us ++ rest) = false)
    (signs : ∀ op ∈ unaryOperators, startsOperator op (ts ++ us ++ rest) = false) :
    (unaryOf g structs).ReadsAs (ts ++ us) rest (·.isRange = false) := by
  have noSign : unaryOperators.find? (startsOperator · (ts ++ us ++ rest)) = none :=
    List.find?_eq_none.mpr fun op member => Bool.eq_false_iff.mp (signs op member)
  refine .ahead (.skip (skips_outerAttributes sharp) ?_)
  rintro _ rfl
  refine .ahead (.neg ampersand ?_)
  simp only [noSign]
  refine .here fun _ => .steps (.bind first fun e noRange => ?_)
  refine (reads_trailers tail deep ends ?_ noRange).last fun e noRange => ?_
  · simp only [List.length_append]
    omega
  · cases verbatim : e.is .verbatim with
    | true => exact .pos rfl (.ahead (.pure rfl))
    | false => exact .neg rfl (.neg (Bool.and_false _) (.pure noRange))

/-- A path as an operand, with calls, fields and question marks behind it. -/
theorem IsPathTo.value (path : IsPathTo i ts) (other : i.text ≠ "crate") (tail : IsTail n us) :
    IsValue (n + 2) structs (ts ++ us) where
  ahead rest ends := by
    rw [List.append_assoc]
    exact path.valueAhead other (tail.pathEnd ends)
  read g deep rest ends := by
    obtain ⟨g, rfl, below⟩ := deep.inner
    obtain ⟨_, written, _⟩ := id path
    have ahead := written.ahead (us ++ rest)
    rw [← List.append_assoc] at ahead
    refine reads_unsigned (reads_pathOperand path.path (tail.pathEnd ends)) tail below ends
      (ahead.noOperator rfl (by decide)) (ahead.noOperator rfl (by decide)) ahead.noSign

/-! ## Literals and brackets -/

/-- The operands that are no paths start with a literal, a bracket or a sign. -/
inductive OperandStart : Token → Prop where
  | literal (text : String) (p : Place) : OperandStart (.literal text p)
  | round (ts : List Token) (opens closes : Place) :
      OperandStart (.group .parenthesis ts opens closes)
  | square (ts : List Token) (opens closes : Place) :
      OperandStart (.group .bracket ts opens closes)
  | minus (spacing : Spacing) (p : Place) : OperandStart (.punct '-' spacing p)
  | bang (spacing : Spacing) (p : Place) : OperandStart (.punct '!' spacing p)
  | ampersand (spacing : Spacing) (p : Place) : OperandStart (.punct '&' spacing p)

theorem OperandStart.valueAhead {t : Token} (start : OperandStart t) (us : List Token) :
    ValueAhead (t :: us) := by
  have call : behindPath.ReadsAs [] (t :: us) (startsOperator "!" · = false) := by
    refine behindPath_of_error ?_
    rintro ⟨_, _, _⟩ rfl
    cases start <;> exact ⟨_, rfl⟩
  cases start <;>
    exact ⟨⟨rfl, rfl, rfl, call⟩, List.cons_ne_nil _ _, rfl, rfl, rfl, rfl, rfl, rfl⟩

theorem isValue_literal (text : String) (p : Place) : IsValue 2 structs [.literal text p] where
  ahead us _ := OperandStart.valueAhead (by constructor) _
  read g deep rest ends := by
    obtain ⟨g, rfl, below⟩ := deep.inner
    have first : (operand g structs).ReadsAs [.literal text p] rest (·.isRange = false) :=
      .ahead (.pos rfl ((reads_literal text p).weaken (by rintro _ rfl; rfl)))
    exact reads_unsigned first .none below ends rfl rfl (noSign_of rfl rfl rfl)

section

variable {trailing : Bool} {xs : List (List Token)}

/-- The elements of an array. -/
theorem reads_elements (each : ∀ x ∈ xs, IsValue n true x) (deep : g.Deep (n + 1)) : ReadsAs (do
      if (← ahead).isEmpty then return (Kind.arrayExpr, [])
      let first ← whole g
      let ts ← ahead
      if ts.isEmpty then return (.arrayExpr, [first])
      else if startsOperator "," ts then
        let comma ← operatorTrees ","
        return (.arrayExpr, first :: comma ++ (← commaSeparated (whole g)))
      else if startsOperator ";" ts then
        let semicolon ← operatorTrees ";"
        return (.repeatExpr, first :: semicolon ++ [← whole g])
      else failHere (.rule "expected `,` or `;`")) (commaTokens trailing xs) []
      (·.1 = .arrayExpr) := by
  cases xs with
  | nil => exact .ahead (.pos rfl (.pure rfl))
  | cons x xs =>
      obtain ⟨first, others⟩ := List.forall_mem_cons.mp each
      obtain ⟨more, split, behind⟩ := commaTokens_cons trailing x xs
      have some : x ++ more ≠ [] := fun none => (first.ahead [] .nothing).some (by
        rw [(List.append_eq_nil_iff.mp none).1]
        rfl)
      rw [split]
      refine .ahead (.neg (by simpa using some) ?_)
      obtain ⟨rfl, -⟩ | rfl := behind
      · rw [List.append_nil]
        exact .last (first.whole deep .nothing) fun _ _ => .ahead (.pos rfl (.pure rfl))
      · refine .next (first.whole deep ?_) fun _ => .ahead (.neg rfl (.pos rfl ?_))
        · rw [List.append_assoc]
          exact .comma _
        · refine .next (reads_operatorTrees rfl rfl) fun _ => ?_
          exact (reads_values others deep).answer fun _ _ => rfl

theorem isValue_array (each : ∀ x ∈ xs, IsValue n true x) :
    IsValue (n + 2) structs (Token.square (commaTokens false xs)) where
  ahead us _ := OperandStart.valueAhead (by constructor) _
  read g deep rest ends := by
    obtain ⟨g, rfl, below⟩ := deep.inner
    have first : (operand g structs).ReadsAs
        (Token.square (commaTokens false xs)) rest (·.isRange = false) := by
      refine .ahead ?_
      show (squareOperand g).ReadsAs _ _ _
      refine (reads_inside (reads_elements each below)).answer fun i kind => ?_
      rw [kind]
      rfl
    exact reads_unsigned first .none below ends rfl rfl (noSign_of rfl rfl rfl)

/-- The empty tuple. -/
theorem isValue_unit : IsValue (n + 2) structs (Token.parens []) where
  ahead us _ := OperandStart.valueAhead (by constructor) _
  read g deep rest ends := by
    obtain ⟨g, rfl, below⟩ := deep.inner
    have first : (operand g structs).ReadsAs (Token.parens []) rest (·.isRange = false) := by
      refine .ahead ?_
      show (roundOperand g).ReadsAs _ _ _
      have nothing : (argumentList g).Reads
          (Token.parens (commaTokens false [])) rest :=
        reads_argumentList (fun _ none => absurd none List.not_mem_nil) below
      refine nothing.last fun t _ => ?_
      cases t with
      | group d q r ts =>
          cases ts with
          | nil => exact .pure rfl
          | cons e es => cases es <;> exact .pure rfl
      | _ => exact .pure rfl
    exact reads_unsigned first .none below ends rfl rfl (noSign_of rfl rfl rfl)

end

/-! ## Signs -/

theorem IsValue.sign {op : String} (value : IsValue n structs ts) (sign : op = "-" ∨ op = "!") :
    IsValue (n + 1) structs (Token.operator op ++ ts) where
  ahead us _ := by
    obtain rfl | rfl := sign
    all_goals exact OperandStart.valueAhead (by constructor) _
  read g deep rest ends := by
    obtain ⟨g, rfl, below⟩ := deep.inner
    obtain rfl | rfl := sign
    all_goals
      refine .ahead (.skip (skips_outerAttributes rfl) ?_)
      rintro _ rfl
      refine .ahead (.neg rfl ?_)
      exact .next (reads_operatorTrees rfl rfl) fun _ => (value.read g below rest ends).answer
        fun _ _ => rfl

theorem IsValue.reference (value : IsValue n structs ts) :
    IsValue (n + 1) structs (Token.operator "&" ++ ts) where
  ahead us _ := OperandStart.valueAhead (by constructor) _
  read g deep rest ends := by
    obtain ⟨g, rfl, below⟩ := deep.inner
    have ahead := value.ahead rest ends
    have reference : (referenceOperand g structs).ReadsAs (Token.operator "&" ++ ts) rest
        (·.isRange = false) := by
      refine .next (reads_operatorTrees rfl rfl) fun _ => .ahead (.neg ahead.raw ?_)
      exact .skip (skips_optionalWord ahead.noMut) fun _ _ =>
        (value.read g below rest ends).answer fun _ _ => rfl
    refine .ahead (.skip (skips_outerAttributes rfl) ?_)
    rintro _ rfl
    exact .ahead (.pos rfl (reference.answer fun _ noRange => noRange))

/-! ## Struct literals -/

/-- A field of a struct literal: a name alone, or with a value. -/
inductive IsFieldValue (n : Nat) : List Token → Prop where
  | name {i : Ident} : i.text ∉ keywords → IsFieldValue n [i.token]
  | value {i : Ident} {ts : List Token} : i.text ∉ keywords → IsValue n true ts →
      IsFieldValue n (i.token :: (Token.operator ":" ++ ts))

theorem reads_fieldValue (field : IsFieldValue n ts) (deep : g.Deep (n + 1))
    (ends : rest = [] ∨ ∃ us, rest = Token.operator "," ++ us) : (fieldValue g).Reads ts rest := by
  have colon : startsOperator ":" rest = false := by obtain rfl | ⟨us, rfl⟩ := ends <;> rfl
  have valueEnd : ValueEnd true rest := by
    obtain rfl | ⟨us, rfl⟩ := ends
    · exact .nothing
    · exact .comma us
  cases field with
  | name ordinary =>
      refine .skip (skips_outerAttributes (startsOperator_token _ _ _)) fun _ _ => ?_
      refine .last (reads_fieldName ordinary) ?_
      rintro _ rfl
      exact .ahead (.neg colon (.pure trivial))
  | @value i ts ordinary value =>
      refine .skip (skips_outerAttributes (startsOperator_token _ _ _)) fun _ _ => ?_
      refine .bind (t := [i.token]) (reads_fieldName ordinary) ?_
      rintro _ rfl
      refine .ahead (.pos rfl ?_)
      exact .next (t := Token.operator ":") (reads_operatorTrees rfl rfl) fun _ =>
        (value.whole deep valueEnd).done

section

variable {trailing : Bool} {xs : List (List Token)}

theorem reads_fieldValues {fuel : Nat} (each : ∀ x ∈ xs, IsFieldValue n x) (deep : g.Deep (n + 1))
    (enough : xs.length ≤ fuel) : (fieldValues g fuel).Reads (commaTokens trailing xs) [] := by
  induction xs generalizing fuel with
  | nil =>
      cases fuel with
      | zero => exact .pure trivial
      | succ fuel => exact .ahead (.pos rfl (.pure trivial))
  | cons x xs ih =>
      obtain ⟨fuel, rfl⟩ := Nat.exists_eq_succ_of_ne_zero (Nat.ne_zero_of_lt enough)
      obtain ⟨first, others⟩ := List.forall_mem_cons.mp each
      obtain ⟨more, split, behind⟩ := commaTokens_cons trailing x xs
      obtain ⟨i, tail, word⟩ : ∃ (i : Ident) (tail : List Token), x = i.token :: tail := by
        cases first <;> exact ⟨_, _, rfl⟩
      have noRest : startsOperator ".." (x ++ more ++ []) = false := by
        rw [word]
        exact startsOperator_token _ _ _
      rw [split]
      refine .ahead (.neg (by rw [word]; rfl) (.neg noRest ?_))
      refine .next (reads_fieldValue first deep ?_) fun _ => .ahead ?_
      all_goals obtain ⟨rfl, -⟩ | rfl := behind
      · exact .inl rfl
      · exact .inr ⟨_, List.append_assoc _ _ _⟩
      · exact .pos rfl (.pure trivial)
      · refine .neg rfl (.next (reads_operatorTrees rfl rfl) fun _ => ?_)
        exact (ih others (Nat.le_of_succ_le_succ enough)).done

/-- A struct literal. -/
theorem IsPathTo.struct (path : IsPathTo i ts) (other : i.text ≠ "crate")
    (each : ∀ x ∈ xs, IsFieldValue n x) :
    IsValue (n + 2) true (ts ++ Token.braces (commaTokens false xs)) where
  ahead rest _ := by
    rw [List.append_assoc]
    have behind : PathEnd false (Token.braces (commaTokens false xs) ++ rest) :=
      ⟨rfl, rfl, rfl, rfl, rfl⟩
    exact path.valueAhead other behind
  read g deep rest ends := by
    obtain ⟨g, rfl, below⟩ := deep.inner
    obtain ⟨_, written, _⟩ := id path
    have ahead := written.ahead (Token.braces (commaTokens false xs) ++ rest)
    rw [← List.append_assoc] at ahead
    have content : Reads (do fieldValues g (← steps)) (commaTokens false xs) [] := by
      refine .steps (reads_fieldValues each below ?_)
      have shorter := length_le_commaTokens false xs
      rw [List.append_nil]
      omega
    have first : (operand g true).ReadsAs
        (ts ++ Token.braces (commaTokens false xs)) rest (·.isRange = false) :=
      reads_operandOfPath path.path rfl rfl fun p =>
        .ahead (.neg rfl (.pos rfl ((reads_grouped content).answer fun _ _ => rfl)))
    rw [← List.append_nil (ts ++ _)] at ahead ⊢
    exact reads_unsigned first .none below ends (ahead.noOperator rfl (by decide))
      (ahead.noOperator rfl (by decide)) ahead.noSign

end

end LogInterface.Parser
