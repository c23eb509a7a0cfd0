/-
# Proofs.Parser.ReadsStatement -- statements and bodies are read

A body is statements that end by themselves and perhaps a last one that need not (`isBody`).  An
operand ends with a semicolon, a `let` has one of its own, and an `if` ends with its block: what
comes next must not go on with any of them (`StatementAhead`), and no statement starts like that.
-/
import LogInterface.Proofs.Parser.ReadsValue

namespace LogInterface.Parser

set_option autoImplicit false

variable {ts us rest : List Token} {g : Grammar} {i : Ident} {n : Nat}

/-! ## Patterns -/

/-- No pattern goes on with what comes next. -/
structure PatternEnd (ts : List Token) : Prop where
  colons : startsOperator "::" ts = false
  bang : startsOperator "!" ts = false
  binding : startsOperator "@" ts = false
  range : startsOperator ".." ts = false
  bar : startsOperator "|" ts = false
  round : startsGroup .parenthesis ts = false
  braces : startsGroup .brace ts = false

namespace PatternEnd

theorem colon (us : List Token) : PatternEnd (Token.operator ":" ++ us) := by
  constructor <;> rfl

theorem equals (us : List Token) : PatternEnd (Token.operator "=" ++ us) := by
  constructor <;> rfl

theorem arrow (us : List Token) : PatternEnd (Token.operator "=>" ++ us) := by
  constructor <;> rfl

end PatternEnd

/-- Every grammar that nests this deep reads the tokens as a pattern. -/
structure IsPattern (n : Nat) (ts : List Token) : Prop where
  bar : ∀ us, startsOperator "|" (ts ++ us) = false
  sharp : ∀ us, startsOperator "#" (ts ++ us) = false
  some : ts ≠ []
  read : ∀ g : Grammar, g.Deep n → ∀ us, PatternEnd us → g.pattern.Reads ts us

theorem IsPattern.mono {m : Nat} (pattern : IsPattern m ts) (less : m ≤ n) : IsPattern n ts :=
  ⟨pattern.bar, pattern.sharp, pattern.some, fun g deep => pattern.read g (deep.mono less)⟩

theorem reads_identPattern (ordinary : i.text ∉ keywords) (ends : PatternEnd rest) :
    (identPattern g).Reads [i.token] rest := by
  refine .skip (skips_optionalWord (startsWord_name ordinary (by decide) _)) fun _ _ => ?_
  refine .skip (skips_optionalWord (startsWord_name ordinary (by decide) _)) fun _ _ => ?_
  refine .ahead (.neg (startsWord_name ordinary (by decide) _) ?_)
  refine .last (reads_name ordinary) fun _ _ => ?_
  refine .skip (skips_operator? ends.binding) ?_
  rintro _ rfl
  exact .pos rfl (.pure trivial)

theorem isPattern_name (ordinary : i.text ∉ keywords) : IsPattern 1 [i.token] where
  bar _ := startsOperator_token _ _ _
  sharp _ := startsOperator_token _ _ _
  some := List.cons_ne_nil _ _
  read g deep us ends := by
    obtain ⟨g, rfl, -⟩ := deep.inner
    have other {w : String} (keyword : w ∈ keywords) : startsWord w (i.token :: us) = false :=
      startsWord_name ordinary keyword us
    have named := startsName_token ordinary us
    refine .ahead (.neg ?_ (.neg (other (by decide)) (.neg (other (by decide)) (.neg ?_
      (.pos ?_ (reads_identPattern ordinary ends))))))
    · have behind : startsOneOf ["Self", "super", "crate"] (i.token :: us) = false := by
        simp [startsOneOf, other (by decide : "Self" ∈ keywords),
          other (by decide : "super" ∈ keywords), other (by decide : "crate" ∈ keywords)]
      have next : skip (i.token :: us) = us := rfl
      simp only [List.singleton_append, startsPathPattern, next, ends.colons, ends.bang,
        ends.braces, ends.round, ends.range, other (by decide : "self" ∈ keywords),
        startsOperator_token, behind, Bool.or_self, Bool.and_false]
    · have literal : startsLiteral (i.token :: us) = false := by
        have noTrue := other (by decide : "true" ∈ keywords)
        have noFalse := other (by decide : "false" ∈ keywords)
        exact Bool.or_eq_false_iff.mpr ⟨noTrue, noFalse⟩
      simp only [List.singleton_append, startsOperator_token, literal,
        other (by decide : "const" ∈ keywords), Bool.or_self]
    · show (_ || startsName (i.token :: us)) = true
      rw [named, Bool.or_true]

theorem isPattern_wild (p : Place) : IsPattern 1 [.ident "_" p] where
  bar _ := rfl
  sharp _ := rfl
  some := List.cons_ne_nil _ _
  read g deep us ends := by
    obtain ⟨g, rfl, -⟩ := deep.inner
    exact .ahead (.neg rfl (.pos rfl (reads_wordTree "_" p).done))

theorem isPattern_literal (text : String) (p : Place) : IsPattern 1 [.literal text p] where
  bar _ := rfl
  sharp _ := rfl
  some := List.cons_ne_nil _ _
  read g deep us ends := by
    obtain ⟨g, rfl, -⟩ := deep.inner
    refine .ahead (.neg rfl (.neg rfl (.neg rfl (.pos rfl ?_))))
    have bound : (rangeBound g).ReadsAs [.literal text p] us (·.is .literal = true) :=
      .ahead (.pos rfl ((reads_literal text p).weaken (by rintro _ rfl; rfl)))
    exact bound.last fun _ literal => .ahead (.neg ends.range (.pos literal (.pure trivial)))

theorem reads_alternatives (pattern : IsPattern n ts) (deep : g.Deep n) (ends : PatternEnd rest) :
    (alternatives g).Reads ts rest := by
  refine .skip (skips_operator? (pattern.bar rest)) ?_
  rintro _ rfl
  refine (pattern.read g deep rest ends).last fun _ _ => .steps ?_
  have further : (furtherAlternatives g (([] ++ rest).length + 1)).ReadsAs [] rest (· = []) :=
    .ahead (.neg (by rw [startsAlternative, List.nil_append, ends.bar]; rfl) (.pure rfl))
  refine further.last ?_
  rintro _ rfl
  exact .pos rfl (.pure trivial)

/-! ## Bodies -/

/-- Does an attribute come next that belongs to what is around it? -/
def startsInner (ts : List Token) : Bool := startsOperator "#" ts && startsOperator "!" (skip ts)

theorem not_startsInner (other : startsOperator "#" ts = false) : startsInner ts = false := by
  rw [startsInner, other]
  rfl

theorem skips_innerAttributes (other : startsInner rest = false) :
    (innerAttributes g).ReadsAs [] rest (· = []) :=
  .steps (.ahead (.neg other (.pure rfl)))

/-- What stands in a body is read to its end. -/
theorem reads_body {content : Parser (List Tree)} {opens closes : Place}
    (read : content.Reads ts []) (outer : startsInner ts = false) :
    (body g content).Reads [.group .brace ts opens closes] rest :=
  reads_grouped (.skip (skips_innerAttributes (by simpa using outer)) fun _ _ => read.done)

/-- Every grammar that nests this deep reads the tokens as the statements of a body. -/
structure IsBody (n : Nat) (ts : List Token) : Prop where
  sharp : startsOperator "#" ts = false
  read : ∀ g : Grammar, g.Deep n → g.statements.Reads ts []

theorem IsBody.mono {m : Nat} (body : IsBody m ts) (less : m ≤ n) : IsBody n ts :=
  ⟨body.sharp, fun g deep => body.read g (deep.mono less)⟩

/-! ## Statements -/

/-- No statement goes on with what comes next. -/
structure StatementAhead (ts : List Token) : Prop where
  sharp : startsOperator "#" ts = false
  semicolon : startsOperator ";" ts = false
  point : startsOperator "." ts = false
  question : startsOperator "?" ts = false
  otherwise : startsWord "else" ts = false

theorem StatementAhead.nothing : StatementAhead [] := by
  constructor <;> rfl

/-- Every grammar that nests this deep reads the tokens as a statement that ends by itself. -/
structure IsStatement (n : Nat) (ts : List Token) : Prop where
  some : ts ≠ []
  ahead : ∀ us, StatementAhead (ts ++ us)
  read : ∀ g : Grammar, g.Deep n → ∀ us, StatementAhead us →
    (statement g).ReadsAs ts us (needsSemicolon · = false)

/-- Every grammar that nests this deep reads the tokens as the last statement of a body. -/
structure IsLast (n : Nat) (ts : List Token) : Prop where
  some : ts ≠ []
  ahead : StatementAhead ts
  read : ∀ g : Grammar, g.Deep n → (statement g).Reads ts []

theorem IsStatement.mono {m : Nat} (statement : IsStatement m ts) (less : m ≤ n) :
    IsStatement n ts :=
  ⟨statement.some, statement.ahead, fun g deep => statement.read g (deep.mono less)⟩

theorem ValueAhead.statement (ahead : ValueAhead ts) (otherwise : startsWord "else" ts = false) :
    StatementAhead ts :=
  ⟨ahead.sharp, ahead.semicolon, ahead.point, ahead.question, otherwise⟩

section

variable {xs : List (List Token)}

theorem reads_statementsWithin {fuel : Nat} (each : ∀ x ∈ xs, IsStatement n x)
    (last : ts = [] ∨ IsLast n ts) (deep : g.Deep n) (enough : xs.length < fuel) :
    (statementsWithin g fuel).Reads (xs.flatten ++ ts) [] := by
  induction xs generalizing fuel with
  | nil =>
      obtain ⟨fuel, rfl⟩ := Nat.exists_eq_succ_of_ne_zero (Nat.ne_zero_of_lt enough)
      obtain rfl | last := last
      · exact .skip (skips_operator? rfl) fun _ none => .neg (by rw [none]; rfl)
          (.ahead (.pos rfl (.pure trivial)))
      · have semicolon : startsOperator ";" (ts ++ []) = false := by
          rw [List.append_nil]
          exact last.ahead.semicolon
        refine .skip (skips_operator? semicolon) fun _ none => .neg (by rw [none]; rfl) ?_
        refine .ahead (.neg (by simpa using last.some) ?_)
        exact (last.read g deep).last fun _ _ => .ahead (.pos rfl (.pure trivial))
  | cons x xs ih =>
      obtain ⟨fuel, rfl⟩ := Nat.exists_eq_succ_of_ne_zero (Nat.ne_zero_of_lt enough)
      obtain ⟨first, others⟩ := List.forall_mem_cons.mp each
      have behind : StatementAhead (xs.flatten ++ ts ++ []) := by
        rw [List.append_nil]
        cases xs with
        | nil => exact last.elim (fun none => none ▸ .nothing) IsLast.ahead
        | cons y ys =>
            rw [List.flatten_cons, List.append_assoc]
            exact (others y List.mem_cons_self).ahead _
      have semicolon := (first.ahead (xs.flatten ++ ts ++ [])).semicolon
      rw [← List.append_assoc, ← List.append_assoc] at semicolon
      rw [List.flatten_cons]
      refine .skip (skips_operator? semicolon) fun _ none => .neg (by rw [none]; rfl) ?_
      refine .ahead (.neg (by simpa using fun none => absurd none first.some) ?_)
      rw [List.append_assoc]
      refine .bind (first.read g deep _ behind) fun s closed => .ahead ?_
      have more := ih others (Nat.lt_of_succ_lt_succ enough)
      by_cases empty : (xs.flatten ++ ts ++ []).isEmpty = true
      · refine .pos empty ?_
        have nothing : xs.flatten ++ ts = [] := by simpa using empty
        rw [nothing]
        exact .pure trivial
      · exact .neg (Bool.eq_false_iff.mpr empty) (.neg closed more.done)

/-- Statements that end by themselves, and perhaps another one. -/
theorem isBody (each : ∀ x ∈ xs, IsStatement n x) (last : ts = [] ∨ IsLast n ts) :
    IsBody (n + 1) (xs.flatten ++ ts) where
  sharp := by
    cases xs with
    | nil => exact last.elim (fun none => none ▸ rfl) fun last => last.ahead.sharp
    | cons x xs =>
        rw [List.flatten_cons, List.append_assoc]
        exact ((each x List.mem_cons_self).ahead _).sharp
  read g deep := by
    obtain ⟨g, rfl, below⟩ := deep.inner
    refine .steps (reads_statementsWithin each last below ?_)
    have shorter := length_le_flatten fun x member => (each x member).some
    simp only [List.length_append]
    omega

end

/-! ## Operands as statements -/

theorem reads_early (ahead : ValueAhead (ts ++ rest)) (ends : ValueEnd true rest)
    (read : (g.unary true).Reads ts rest) : (earlyOf g).Reads ts rest := by
  refine .skip (skips_outerAttributes ahead.sharp) ?_
  rintro _ rfl
  exact .ahead (.neg ahead.block (read.last fun _ _ => (reads_operatorsBehind ends).reads))

theorem IsValue.early (value : IsValue n true ts) (deep : g.Deep (n + 1))
    (ends : ValueEnd true rest) : g.early.Reads ts rest := by
  obtain ⟨g, rfl, below⟩ := deep.inner
  exact reads_early (value.ahead rest ends) ends (value.read g below rest ends).reads

theorem not_startsBracedCall (noBang : startsOperator "!" ts = false) :
    startsBracedCall ts = false := by
  rw [startsBracedCall, noBang]
  rfl

/-- What starts neither an item nor a block is read as an expression. -/
theorem reads_expressionStatement {tail : List Token} {holds holds' : Tree → Prop}
    (ahead : ExpressionAhead (ts ++ tail ++ rest)) (early : g.early.ReadsAs ts (tail ++ rest) holds)
    (others : ∀ e, holds e →
      ReadsAs (do return statementOf g [] e (← optionalOperator ";")) tail rest holds') :
    (statement g).ReadsAs (ts ++ tail) rest holds' := by
  refine .ahead (.skip (skips_outerAttributes ahead.sharp) ?_)
  rintro _ rfl
  refine .ahead (.skip ahead.call fun behind noBang => ?_)
  refine .neg (not_startsBracedCall noBang) (.neg ahead.noLet (.neg ?_ ?_))
  · rw [ahead.item, startsNamedCall, noBang]
    rfl
  · exact .bind early others

theorem needsSemicolon_closed {e x : Tree} {xs : List Tree} :
    needsSemicolon (statementOf g [] e (.node .list (x :: xs))) = false := by
  by_cases call : (e.is .invocation && (!(x :: xs).isEmpty || e.endsInBraces)) = true
  · rw [statementOf, Tree.children, if_pos call]
    rfl
  · rw [statementOf, Tree.children, if_neg call]
    rfl

theorem reads_closed (ahead : ExpressionAhead (ts ++ Token.operator ";" ++ rest))
    (early : g.early.Reads ts (Token.operator ";" ++ rest)) :
    (statement g).ReadsAs (ts ++ Token.operator ";") rest (needsSemicolon · = false) := by
  refine reads_expressionStatement ahead early fun e _ => ?_
  refine (reads_optionalOperator rfl rfl rfl).answer ?_
  rintro _ ⟨x, xs, rfl⟩
  exact needsSemicolon_closed

/-- An operand with a semicolon behind it. -/
theorem IsValue.statement (value : IsValue n true ts)
    (otherwise : ∀ us, startsWord "else" (ts ++ us) = false) :
    IsStatement (n + 1) (ts ++ Token.operator ";") where
  some none := (value.ahead [] .nothing).some (by rw [(List.append_eq_nil_iff.mp none).1]; rfl)
  ahead us := by
    rw [List.append_assoc]
    exact (value.ahead _ (.semicolon us)).statement (otherwise _)
  read g deep us _ := by
    refine reads_closed ?_ (value.early deep (.semicolon us))
    rw [List.append_assoc]
    exact (value.ahead _ (.semicolon us)).toExpressionAhead

/-- An operand that the body answers. -/
theorem IsValue.last (value : IsValue n true ts)
    (otherwise : ∀ us, startsWord "else" (ts ++ us) = false) : IsLast (n + 1) ts where
  some none := (value.ahead [] .nothing).some (by rw [none]; rfl)
  ahead := by
    have ahead := (value.ahead [] .nothing).statement (otherwise [])
    rwa [List.append_nil] at ahead
  read g deep := by
    rw [← List.append_nil ts]
    refine reads_expressionStatement ?_ (value.early deep .nothing) fun e _ => ?_
    · rw [List.append_nil]
      exact (value.ahead [] .nothing).toExpressionAhead
    · exact (skips_optionalOperator rfl).done

/-- A function is left without a value. -/
theorem isStatement_return :
    IsStatement 3 ([Token.word "return"] ++ Token.operator ";") where
  some := List.cons_ne_nil _ _
  ahead us := by constructor <;> rfl
  read g deep us _ := by
    obtain ⟨_, rfl, deeper⟩ := deep.inner
    obtain ⟨g, rfl, below⟩ := deeper.inner
    have ahead : ValueAhead ([Token.word "return"] ++ Token.operator ";" ++ us) := by
      refine ⟨⟨rfl, rfl, rfl, behindPath_of_error ?_⟩, List.cons_ne_nil _ _, rfl, rfl, rfl, rfl,
        rfl, rfl⟩
      rintro ⟨_, _, _⟩ rfl
      exact ⟨_, rfl⟩
    have first : (operand g true).ReadsAs [Token.word "return"] ([] ++ (Token.operator ";" ++ us))
        (·.isRange = false) := by
      refine .ahead ?_
      refine .next (t := [Token.word "return"]) (reads_wordTree "return" _) fun _ => ?_
      have value : (value? g).Reads [] (Token.operator ";" ++ us) := .ahead (.pure trivial)
      exact value.answer fun _ _ => rfl
    refine reads_closed ahead.toExpressionAhead
      (reads_early (List.append_assoc .. ▸ ahead) (.semicolon us) ?_)
    have ends : ValueEnd true (Token.operator ";" ++ us) := .semicolon us
    exact (reads_unsigned first .none below ends rfl rfl (noSign_of rfl rfl rfl)).reads

/-! ## Statements of their own form -/

theorem reads_initialValue (value : IsValue n true ts) (deep : g.Deep (n + 1)) :
    (initialValue g).Reads (Token.operator "=" ++ ts) (Token.operator ";" ++ rest) := by
  refine .bind (reads_operator? rfl rfl rfl) fun _ filled => .neg filled ?_
  refine (value.expression deep (.semicolon rest)).last fun e _ => .ahead (.neg ?_ ?_)
  · exact Bool.and_false _
  · exact .given (.pure trivial)

/-- A name is bound to a value. -/
theorem IsValue.bound (value : IsValue n true ts) (ordinary : i.text ∉ keywords) :
    IsStatement (n + 1) ([Token.word "let"] ++ ([i.token]
      ++ ((Token.operator "=" ++ ts) ++ Token.operator ";"))) where
  some := List.cons_ne_nil _ _
  ahead us := by constructor <;> rfl
  read g deep us _ := by
    have noPath : behindPath.ReadsAs [] ([Token.word "let"] ++ ([i.token]
        ++ ((Token.operator "=" ++ ts) ++ Token.operator ";")) ++ us)
        (startsOperator "!" · = false) := by
      refine behindPath_of_error ?_
      rintro ⟨_, _, _⟩ rfl
      exact ⟨_, rfl⟩
    refine .ahead (.skip (skips_outerAttributes rfl) ?_)
    rintro _ rfl
    refine .ahead (.skip noPath fun behind noBang => ?_)
    refine .neg (not_startsBracedCall noBang) (.pos rfl ?_)
    refine .next (reads_wordTree "let" _) fun _ => ?_
    refine .next
      ((isPattern_name ordinary).read g (deep.mono (Nat.le_add_left 1 n)) _ (.equals _)) fun _ => ?_
    refine .skip (skips_operator? rfl) ?_
    rintro _ rfl
    refine .pos rfl (.given (.next (reads_initialValue value deep) fun _ => ?_))
    exact (reads_operatorTrees rfl rfl).answer fun _ _ => rfl

/-! ## Blocks -/

section

variable {cond content : List Token} {q r : Place}

theorem IsValue.condition (value : IsValue n false cond) (deep : g.Deep (n + 1)) :
    (condition g).Reads cond (.group .brace content q r :: rest) :=
  (value.expression deep (.block content rest q r)).done

/-- What is made of a block ends with it. -/
theorem reads_earlyBlock {holds : Tree → Prop} (sharp : startsOperator "#" (ts ++ rest) = false)
    (block : startsBlockLike (ts ++ rest) = true) (read : (blockLike g).ReadsAs ts rest holds)
    (ends : StatementAhead rest) : (earlyOf g).ReadsAs ts rest holds := by
  refine .skip (skips_outerAttributes sharp) ?_
  rintro _ rfl
  refine .ahead (.pos block (read.last fun b answer => .ahead (.neg ?_ (.pure answer))))
  rw [List.nil_append, ends.point, ends.question]
  rfl

theorem reads_ifExpr {fuel : Nat} (value : IsValue n false cond) (body : IsBody n content)
    (deep : g.Deep (n + 1)) (ends : StatementAhead rest) :
    (ifExpr g (fuel + 1)).ReadsAs
      ([Token.word "if"] ++ (cond ++ Token.braces content)) rest
      fun e => ∃ children, e = .node .ifExpr children := by
  have block : (plainBody g).Reads (Token.braces content) rest :=
    reads_grouped (body.read g (deep.mono (Nat.le_succ n))).done
  have noElse : (elseBranch g (ifExpr g fuel)).Reads [] rest :=
    (skips_word? ends.otherwise).last (by
      rintro _ rfl
      exact .pure trivial)
  refine .next (reads_wordTree "if" _) fun _ => .next (value.condition deep) fun _ => ?_
  exact block.last fun _ _ => noElse.answer fun _ _ => ⟨_, rfl⟩

theorem needsSemicolon_ifExpr (children : List Tree) (semicolon : Tree) :
    needsSemicolon (statementOf g [] (.node .ifExpr children) semicolon) = false := by
  have kept : statementOf g [] (.node .ifExpr children) semicolon
      = .node .exprStmt [.node .ifExpr children, semicolon] := rfl
  rw [kept]
  cases semicolon with
  | node kind ts =>
      cases kind with
      | list => cases ts <;> rfl
      | _ => rfl
  | _ => rfl

/-- A body that runs where a condition holds. -/
theorem isStatement_if (value : IsValue n false cond) (body : IsBody n content) :
    IsStatement (n + 2) ([Token.word "if"] ++ (cond ++ Token.braces content)) where
  some := List.cons_ne_nil _ _
  ahead us := by constructor <;> rfl
  read g deep us ends := by
    obtain ⟨g, rfl, below⟩ := deep.inner
    have ahead : ExpressionAhead
        ([Token.word "if"] ++ (cond ++ Token.braces content) ++ [] ++ us) := by
      refine ⟨rfl, rfl, rfl, behindPath_of_error ?_⟩
      rintro ⟨_, _, _⟩ rfl
      exact ⟨_, rfl⟩
    have read : (blockLike g).ReadsAs
        ([Token.word "if"] ++ (cond ++ Token.braces content)) ([] ++ us)
        fun e => ∃ children, e = .node .ifExpr children :=
      .ahead (.steps (reads_ifExpr value body below ends))
    rw [← List.append_nil (_ ++ _)]
    refine reads_expressionStatement ahead (reads_earlyBlock rfl rfl read ends) ?_
    rintro _ ⟨children, rfl⟩
    exact (skips_optionalOperator ends.semicolon).answer fun _ _ => needsSemicolon_ifExpr _ _

/-- Every grammar that nests this deep reads the tokens as an arm of a `match`. -/
structure IsArm (n : Nat) (ts : List Token) : Prop where
  some : ts ≠ []
  sharp : ∀ us, startsOperator "#" (ts ++ us) = false
  read : ∀ g : Grammar, g.Deep n → ∀ us, (matchArm g).Reads ts us

theorem isArm {pattern value : List Token} (isPattern : IsPattern (n + 1) pattern)
    (isValue : IsValue n true value) :
    IsArm (n + 1) (pattern ++ (Token.operator "=>" ++ (value ++ Token.operator ","))) where
  some none := isPattern.some (List.append_eq_nil_iff.mp none).1
  sharp us := by
    rw [List.append_assoc]
    exact isPattern.sharp _
  read g deep us := by
    have sharp := isPattern.sharp (Token.operator "=>" ++ (value ++ Token.operator ",") ++ us)
    rw [← List.append_assoc] at sharp
    refine .skip (skips_outerAttributes sharp) fun _ _ => ?_
    refine .next (reads_alternatives isPattern deep (.arrow _)) fun _ => ?_
    refine .skip (skips_word? rfl) ?_
    rintro _ rfl
    refine .given (.next (reads_operatorTrees rfl rfl) fun _ => ?_)
    refine .next (isValue.early deep (.comma us)) fun e => .ahead ?_
    cases block : e.isBlockLike with
    | true => exact .pos rfl ((reads_optionalOperator rfl rfl rfl).done)
    | false =>
        exact .neg rfl (.last (reads_operatorTrees rfl rfl) fun _ _ => .given (.pure trivial))

/-- A choice between arms that the body answers. -/
theorem isLast_match {xs : List (List Token)} (value : IsValue n false cond)
    (each : ∀ x ∈ xs, IsArm (n + 1) x) :
    IsLast (n + 2) ([Token.word "match"] ++ (cond ++ Token.braces xs.flatten)) where
  some := List.cons_ne_nil _ _
  ahead := by constructor <;> rfl
  read g deep := by
    obtain ⟨g, rfl, below⟩ := deep.inner
    have ahead : ExpressionAhead
        ([Token.word "match"] ++ (cond ++ Token.braces xs.flatten) ++ [] ++ []) := by
      refine ⟨rfl, rfl, rfl, behindPath_of_error ?_⟩
      rintro ⟨_, _, _⟩ rfl
      exact ⟨_, rfl⟩
    have arms : (body g (many (matchArm g))).Reads
        (Token.braces xs.flatten) ([] ++ []) := by
      refine reads_body
        (reads_many fun x member => ⟨(each x member).some, (each x member).read g below⟩) ?_
      cases xs with
      | nil => rfl
      | cons x xs => exact not_startsInner ((each x List.mem_cons_self).sharp _)
    have read : (blockLike g).Reads
        ([Token.word "match"] ++ (cond ++ Token.braces xs.flatten)) ([] ++ []) := by
      refine .ahead (.next (reads_wordTree "match" _) fun _ => ?_)
      exact .next (value.condition below) fun _ => arms.done
    rw [← List.append_nil (_ ++ _)]
    refine reads_expressionStatement ahead (reads_earlyBlock rfl rfl read .nothing) fun _ _ => ?_
    exact (skips_optionalOperator rfl).done

end

end LogInterface.Parser
