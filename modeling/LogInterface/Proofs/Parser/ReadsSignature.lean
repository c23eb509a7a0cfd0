/-
# Proofs.Parser.ReadsSignature -- attributes, visibilities and signatures are read

What stands in front of an item and at the head of a function.  Only the first input of a function
may be a receiver, so a list of inputs is a receiver and parameters, or parameters alone; a
parameter is told from a receiver because none can be read where a name stands.
-/
import LogInterface.Proofs.Parser.ReadsStatement

namespace LogInterface.Parser

set_option autoImplicit false

variable {ts us rest : List Token} {g : Grammar} {i : Ident} {n : Nat}

/-! ## Attributes -/

/-- Every grammar that nests this deep reads the tokens as an attribute in front of something. -/
structure IsAttribute (n : Nat) (ts : List Token) : Prop where
  sharp : ∀ us, startsOperator "#" (ts ++ us) = true
  outer : ∀ us, startsInner (ts ++ us) = false
  read : ∀ g : Grammar, g.Deep n → ∀ us, (oneAttribute g false).Reads ts us

theorem IsAttribute.mono {m : Nat} (isAttribute : IsAttribute m ts) (less : m ≤ n) :
    IsAttribute n ts :=
  ⟨isAttribute.sharp, isAttribute.outer, fun g deep => isAttribute.read g (deep.mono less)⟩

theorem reads_plainPathOf {path : PlainPath} (written : path.Written ts)
    (colons : startsOperator "::" rest = false) : plainPath.Reads ts rest :=
  fun _ tokens => ⟨path, trivial, plainPath_of_written written (Bool.eq_false_iff.mp colons) tokens⟩

section

variable {p opens closes : Place} {spacing : Spacing}

/-- A sharp, and in brackets a name and what stands behind it. -/
theorem isAttribute_of {input : List Token} (ordinary : i.text ∉ keywords)
    (colons : startsOperator "::" input = false)
    (read : ∀ g : Grammar, (attributeInput g).Reads input []) :
    IsAttribute 0 [.punct '#' spacing p, .group .bracket (i.token :: input) opens closes] where
  sharp _ := rfl
  outer _ := rfl
  read g _ us := by
    have content (place : Place) :
        (attributeContent g false place).Reads (i.token :: input) [] := by
      refine .ahead (.neg (startsWord_name ordinary (by decide) _) ?_)
      refine .next (t := [i.token]) (reads_plainPathOf (.relative (.last (.inl ordinary))) ?_) ?_
      · rwa [List.append_nil]
      · exact fun _ => (read g).done
    refine .here fun place => .next (t := [_]) (reads_operator rfl rfl) fun _ => ?_
    exact (reads_inside (content place)).done

/-- An attribute with arguments in brackets. -/
theorem isAttribute_list {content : List Token} {d : Delimiter} {start stop : Place}
    (ordinary : i.text ∉ keywords) : IsAttribute 0
      [.punct '#' spacing p, .group .bracket [i.token, .group d content start stop] opens closes] :=
  isAttribute_of ordinary rfl fun _ s tokens => by
    refine ⟨.list d content start stop, trivial, ?_⟩
    rw [attributeInput, ahead_bind, tokens]
    rfl

/-- An attribute with a literal as its value. -/
theorem isAttribute_literal {text : String} {place : Place} (ordinary : i.text ∉ keywords) :
    IsAttribute 0 [.punct '#' spacing p,
      .group .bracket (i.token :: (Token.operator "=" ++ [.literal text place])) opens closes] :=
  isAttribute_of ordinary rfl fun g => by
    refine .ahead (.pos rfl (.next (t := Token.operator "=") (reads_operator rfl rfl) fun _ => ?_))
    have value : (attributeValue g).Reads [.literal text place] [] :=
      .ahead (.pos rfl (reads_literal text place).reads)
    exact value.done

end

theorem reads_outerAttributesWithin {as : List (List Token)} {fuel : Nat}
    (each : ∀ a ∈ as, IsAttribute n a) (deep : g.Deep n) (ends : startsOperator "#" rest = false)
    (enough : as.length ≤ fuel) : (outerAttributesWithin g fuel).Reads as.flatten rest := by
  induction as generalizing fuel with
  | nil =>
      cases fuel with
      | zero => exact .pure trivial
      | succ fuel => exact .ahead (.neg ends (.pure trivial))
  | cons a as ih =>
      obtain ⟨fuel, rfl⟩ := Nat.exists_eq_succ_of_ne_zero (Nat.ne_zero_of_lt enough)
      obtain ⟨first, others⟩ := List.forall_mem_cons.mp each
      rw [List.flatten_cons]
      refine .ahead (.pos ?_ (.next (first.read g deep _) fun _ => ?_))
      · rw [List.append_assoc]
        exact first.sharp _
      · exact (ih others (Nat.le_of_succ_le_succ enough)).done

theorem reads_outerAttributes {as : List (List Token)} (each : ∀ a ∈ as, IsAttribute n a)
    (deep : g.Deep n) (ends : startsOperator "#" rest = false) :
    (outerAttributes g).Reads as.flatten rest := by
  refine .steps (reads_outerAttributesWithin each deep ends ?_)
  have shorter := length_le_flatten fun a member none => by
    have sharp := (each a member).sharp []
    rw [none] at sharp
    cases sharp
  rw [List.length_append]
  omega

/-- What starts with attributes starts with none that belongs to what is around it. -/
theorem outer_of_attributes {as : List (List Token)} (each : ∀ a ∈ as, IsAttribute n a)
    (behind : startsInner ts = false) : startsInner (as.flatten ++ ts) = false := by
  cases as with
  | nil => exact behind
  | cons a as =>
      rw [List.flatten_cons, List.append_assoc]
      exact (each a List.mem_cons_self).outer _

/-! ## Visibility -/

/-- The tokens of a visibility. -/
inductive IsVisibility : List Token → Prop where
  | none : IsVisibility []
  | all (p : Place) : IsVisibility [.ident "pub" p]
  | word {w : String} (p q opens closes : Place) : w ∈ ["crate", "self", "super"] →
      IsVisibility [.ident "pub" p, .group .parenthesis [.ident w q] opens closes]
  | path {ts : List Token} (p q opens closes : Place) : IsPath ts →
      IsVisibility [.ident "pub" p, .group .parenthesis (.ident "in" q :: ts) opens closes]

theorem reads_plainPathTree (path : IsPath ts) : plainPathTree.Reads ts [] := by
  obtain ⟨_, written⟩ := path
  exact .here fun _ => (reads_plainPathOf written rfl).done

theorem reads_visibility {w : String} {p : Place} (isVisibility : IsVisibility ts)
    (other : w ≠ "pub") : visibility.Reads ts (.ident w p :: rest) := by
  cases isVisibility with
  | none =>
      refine .skip (skips_word? (beq_eq_false_iff_ne.mpr other)) ?_
      rintro _ rfl
      exact .pure trivial
  | all q =>
      refine .last (reads_word? "pub" q) fun a some => ?_
      obtain ⟨q, rfl⟩ := Option.isSome_iff_exists.mp some
      exact .ahead (.given (.pure trivial))
  | @word v p q opens closes inPath =>
      refine .bind (t := [.ident "pub" p]) (reads_word? "pub" p) fun a some => ?_
      obtain ⟨p, rfl⟩ := Option.isSome_iff_exists.mp some
      have starts : startsOneOf ["crate", "self", "super"] [.ident v q] = true :=
        List.any_eq_true.mpr ⟨v, inPath, beq_self_eq_true v⟩
      have content : visibleIn.Reads [.ident v q] [] :=
        .ahead (.pos starts (reads_anyWord ⟨v, q⟩).done)
      refine .ahead (.pos ?_ ((reads_grouped content).last fun _ _ => .given (.pure trivial)))
      rw [starts]
      rfl
  | @path ts p q opens closes path =>
      refine .bind (t := [.ident "pub" p]) (reads_word? "pub" p) fun a some => ?_
      obtain ⟨p, rfl⟩ := Option.isSome_iff_exists.mp some
      have content : visibleIn.Reads (.ident "in" q :: ts) [] :=
        .ahead (.neg rfl (.next (t := [_]) (reads_wordTree "in" q) fun _ =>
          (reads_plainPathTree path).done))
      exact .ahead (.pos rfl ((reads_grouped content).last fun _ _ => .given (.pure trivial)))

theorem IsVisibility.starts {w : String} {p : Place} (isVisibility : IsVisibility ts)
    (us : List Token) : ∃ v q more, ts ++ .ident w p :: us = .ident v q :: more ∧
      (v = "pub" ∨ v = w) := by
  cases isVisibility with
  | none => exact ⟨_, _, _, rfl, .inr rfl⟩
  | all | word | path => exact ⟨_, _, _, rfl, .inl rfl⟩

/-! ## Inputs -/

/-- What stands behind an input: nothing, or a comma. -/
def InputEnd (ts : List Token) : Prop := ts = [] ∨ ∃ us, ts = Token.operator "," ++ us

/-- Every grammar that nests this deep reads the tokens as an input; is it a receiver? -/
structure IsInput (n : Nat) (received : Bool) (ts : List Token) : Prop where
  some : ts ≠ []
  read : ∀ g : Grammar, g.Deep n → ∀ us, InputEnd us →
    (input g).ReadsAs ts us fun a => ∃ i, a = .input i ∧ isReceiver i = received

theorem IsInput.mono {m : Nat} {received : Bool} (isInput : IsInput m received ts) (less : m ≤ n) :
    IsInput n received ts :=
  ⟨isInput.some, fun g deep => isInput.read g (deep.mono less)⟩

/-- A receiver without a type, by value or by reference. -/
theorem isInput_receiver {mark : List Token}
    (marked : mark = [] ∨ mark = Token.operator "&") :
    IsInput 0 true (mark ++ [Token.word "self"]) where
  some := by simp
  read g _ us ends := by
    have colon : startsOperator ":" us = false := by
      obtain rfl | ⟨us, rfl⟩ := ends <;> rfl
    have self (as : List Attribute) : (receiver g as).Reads (mark ++ [Token.word "self"]) us := by
      refine .here fun _ => ?_
      obtain rfl | rfl := marked
      · refine .skip (skips_operator? rfl) ?_
        rintro _ rfl
        refine .given (.skip (skips_word? rfl) fun _ _ => ?_)
        refine .last (reads_word "self" _) fun _ _ => .skip (skips_operator? colon) ?_
        rintro _ rfl
        exact .given (.pure trivial)
      · refine .bind (reads_operator? rfl rfl rfl) fun op filled => ?_
        cases op with
        | nil => cases filled
        | cons t ts =>
            refine .skip (skips_lifetime? rfl) fun _ _ => .skip (skips_word? rfl) fun _ _ => ?_
            exact .last (reads_word "self" _) fun _ _ => .given (.given (.pure trivial))
    have plain : startsOperator "#" (mark ++ [Token.word "self"] ++ us) = false ∧
        startsOperator "..." (mark ++ [Token.word "self"] ++ us) = false := by
      obtain rfl | rfl := marked <;> exact ⟨rfl, rfl⟩
    refine .skip (skips_outerAttributes plain.1) ?_
    rintro _ rfl
    refine .ahead (.neg plain.2 (.last (reads_attempt (self [])) ?_))
    rintro _ ⟨r, rfl, -⟩
    exact .pure ⟨_, rfl, rfl⟩

/-- Where a name stands comes no receiver. -/
theorem refuses_receiver (ordinary : i.text ∉ keywords) (as : List Attribute) :
    Refuses (receiver g as) (i.token :: us) := by
  refine .here fun _ => .after (skips_operator? (startsOperator_token _ _ _)) ?_
  rintro _ rfl
  refine .given (.after (skips_word? (startsWord_name ordinary (by decide) _)) fun _ _ => ?_)
  exact .first (refuses_word (startsWord_name ordinary (by decide) _))

/-- A parameter: a name and its type. -/
theorem IsType.input (type : IsType n ts) (ordinary : i.text ∉ keywords)
    (noDots : ∀ us, startsOperator "..." (ts ++ us) = false) :
    IsInput (n + 1) false ([i.token] ++ (Token.operator ":" ++ ts)) where
  some := List.cons_ne_nil _ _
  read g deep us ends := by
    have typeEnd : endsType us = true := by
      obtain rfl | ⟨us, rfl⟩ := ends <;> rfl
    have pattern := (isPattern_name ordinary).read g (deep.mono (Nat.le_add_left 1 n))
      (Token.operator ":" ++ ts ++ us) (by rw [List.append_assoc]; exact .colon _)
    refine .skip (skips_outerAttributes (startsOperator_token _ _ _)) ?_
    rintro _ rfl
    refine .ahead (.neg (startsOperator_token _ _ _) ?_)
    refine .skip (skips_attempt (refuses_receiver ordinary [])) ?_
    rintro _ rfl
    refine .ahead (.here fun _ => .neg (Bool.and_false _) (.next pattern fun _ => ?_))
    refine .next (reads_operatorTrees rfl rfl) fun _ => .ahead (.neg ?_ ?_)
    · rw [noDots]
      rfl
    · exact (type g (deep.mono (Nat.le_succ n)) true us typeEnd).answer fun _ _ => ⟨_, rfl, rfl⟩

section

variable {trailing : Bool} {xs : List (List Token)}

/-- One round of the loop: an input, and behind a comma the others. -/
theorem reads_inputsWithin_succ {x more : List Token} {fuel : Nat} {earlier received r : Bool}
    (first : IsInput n r x) (deep : g.Deep n) (only : r = true → earlier = false ∧ received = false)
    (others : more = [] ∨ ∃ us, more = Token.operator "," ++ us ∧
      ∀ received, (inputsWithin g fuel true received).Reads us []) :
    (inputsWithin g (fuel + 1) earlier received).Reads (x ++ more) [] := by
  refine .ahead (.neg (by simpa using fun none => absurd none first.some) ?_)
  have ends : InputEnd (more ++ []) := by
    obtain rfl | ⟨us, rfl, -⟩ := others
    · exact .inl rfl
    · exact .inr ⟨us, List.append_nil _⟩
  refine .bind (first.read g deep _ ends) ?_
  rintro _ ⟨i, rfl, kind⟩
  have allowed : (onlyFirst earlier received i).Reads [] (more ++ []) := by
    cases i with
    | typed => exact .pure trivial
    | receiver r =>
        obtain ⟨rfl, rfl⟩ := only kind.symm
        exact .pure trivial
  refine .skip allowed fun _ _ => .ahead ?_
  obtain rfl | ⟨us, rfl, read⟩ := others
  · exact .pos rfl (.pure trivial)
  · exact .neg rfl (.next reads_comma fun _ => (read _).done)

theorem reads_inputsWithin {fuel : Nat} {earlier received : Bool}
    (each : ∀ x ∈ xs, IsInput n false x) (deep : g.Deep n) (enough : xs.length ≤ fuel) :
    (inputsWithin g fuel earlier received).Reads (commaTokens trailing xs) [] := by
  induction xs generalizing fuel earlier received with
  | nil =>
      cases fuel with
      | zero => exact .pure trivial
      | succ fuel => exact .ahead (.pos rfl (.pure trivial))
  | cons x xs ih =>
      obtain ⟨fuel, rfl⟩ := Nat.exists_eq_succ_of_ne_zero (Nat.ne_zero_of_lt enough)
      obtain ⟨first, others⟩ := List.forall_mem_cons.mp each
      obtain ⟨more, split, behind⟩ := commaTokens_cons trailing x xs
      rw [split]
      refine reads_inputsWithin_succ first deep (fun no => Bool.noConfusion no)
        (behind.imp And.left ?_)
      exact fun same => ⟨_, same, fun _ => ih others (Nat.le_of_succ_le_succ enough)⟩

/-- The inputs of a function, of which the first one may be a receiver. -/
structure IsInputs (n : Nat) (xs : List (List Token)) : Prop where
  first : ∀ x ∈ xs.head?, ∃ received, IsInput n received x
  others : ∀ x ∈ xs.tail, IsInput n false x

theorem reads_inputs (inputs : IsInputs n xs) (deep : g.Deep n) :
    Reads (do inputsWithin g (← steps) false false) (commaTokens trailing xs) [] := by
  refine .steps ?_
  cases xs with
  | nil =>
      exact reads_inputsWithin (fun _ none => absurd none List.not_mem_nil) deep (Nat.zero_le _)
  | cons x xs =>
      obtain ⟨received, first⟩ := inputs.first x rfl
      obtain ⟨more, split, behind⟩ := commaTokens_cons trailing x xs
      have shorter := length_le_commaTokens trailing (x :: xs)
      rw [split] at shorter ⊢
      refine reads_inputsWithin_succ first deep (fun _ => ⟨rfl, rfl⟩) (behind.imp And.left ?_)
      refine fun same => ⟨_, same, fun _ => reads_inputsWithin inputs.others deep ?_⟩
      simp only [List.length_cons, List.append_nil] at shorter ⊢
      omega

end

/-! ## Signatures -/

/-- Every grammar that nests this deep reads the tokens as a signature in front of a body. -/
structure IsSignature (n : Nat) (ts : List Token) : Prop where
  starts : ∃ w p more, ts = .ident w p :: more ∧ (w = "fn" ∨ w = "const")
  isSignature : ∀ us, startsSignature false (ts ++ us) = true
  read : ∀ g : Grammar, g.Deep n → ∀ content opens closes us,
    (signature g).Reads ts (.group .brace content opens closes :: us)

theorem IsSignature.mono {m : Nat} (isSignature : IsSignature m ts) (less : m ≤ n) :
    IsSignature n ts :=
  ⟨isSignature.starts, isSignature.isSignature, fun g deep => isSignature.read g (deep.mono less)⟩

/-- What a function answers, if it says so. -/
inductive IsOutput (n : Nat) : List Token → Prop where
  | none : IsOutput n []
  | type {ts : List Token} : IsType n ts → IsOutput n (Token.operator "->" ++ ts)

theorem reads_output (isOutput : IsOutput n ts) (deep : g.Deep n) (ends : endsType rest = true)
    (noArrow : startsOperator "->" rest = false) : (output g true).Reads ts rest := by
  cases isOutput with
  | none =>
      refine .skip (skips_operator? noArrow) ?_
      rintro _ rfl
      exact .pos rfl (.pure trivial)
  | type isType =>
      refine .bind (reads_operator? rfl rfl rfl) fun _ filled => .neg filled ?_
      exact (isType g deep true rest ends).done

/-- A clause with one predicate, a path and its bounds, or none. -/
inductive IsClause (n : Nat) : List Token → Prop where
  | none : IsClause n []
  | bounds {ts x : List Token} {xs : List (List Token)} : IsType n ts → IsPath ts →
      (∀ y ∈ x :: xs, IsBound n y) → IsClause n
        ([Token.word "where"] ++ (ts ++ (Token.operator ":" ++ (plusTokens (x :: xs)
          ++ Token.operator ","))))

section

variable {content : List Token} {opens closes : Place}

theorem reads_wherePredicate {x : List Token} {xs : List (List Token)} (type : IsType n ts)
    (path : IsPath ts) (each : ∀ y ∈ x :: xs, IsBound n y) (deep : g.Deep n) :
    (wherePredicate g).Reads (ts ++ (Token.operator ":" ++ plusTokens (x :: xs)))
      (Token.operator "," ++ us) := by
  obtain ⟨_, written⟩ := path
  have ahead := written.ahead (Token.operator ":" ++ plusTokens (x :: xs)
    ++ (Token.operator "," ++ us))
  rw [← List.append_assoc] at ahead
  refine .ahead (.neg (by rw [ahead.noLifetime]; rfl) ?_)
  have noBinder : (binder? g).ReadsAs [] (ts ++ (Token.operator ":" ++ plusTokens (x :: xs))
      ++ (Token.operator "," ++ us)) (·.isAbsent = true) :=
    .ahead (.neg (ahead.noWord (by decide)) (.pure rfl))
  refine .skip noBinder fun _ _ => ?_
  refine .next (type g deep true _ rfl) fun _ => .next (reads_operatorTrees rfl rfl) fun _ => ?_
  refine (reads_boundsUntil (fun ts goes => ?_) each deep rfl rfl).done
  simp only [endsBounds, Bool.or_eq_false_iff] at goes
  exact goes.1.1

theorem skips_whereClause (other : startsWord "where" rest = false) :
    (whereClause? g).ReadsAs [] rest (· = none) :=
  (skips_word? other).last (by
    rintro _ rfl
    exact .pure rfl)

theorem reads_clause (isClause : IsClause n ts) (deep : g.Deep n) :
    (whereClause? g).Reads ts (.group .brace content opens closes :: us) := by
  cases isClause with
  | none => exact (skips_whereClause rfl).reads
  | @bounds ts x xs type path each =>
      obtain ⟨_, written⟩ := id path
      have ahead := written.ahead (Token.operator ":" ++ (plusTokens (x :: xs)
        ++ Token.operator ",") ++ .group .brace content opens closes :: us)
      rw [← List.append_assoc] at ahead
      have goes := ahead.goesOn
      simp only [endsBounds, Bool.or_eq_false_iff] at goes
      have noGenerics : startsGenerics (ts ++ (Token.operator ":" ++ (plusTokens (x :: xs)
          ++ Token.operator ",")) ++ .group .brace content opens closes :: us) = false := by
        rw [startsGenerics, ahead.noOperator rfl (by decide)]
        rfl
      refine .bind (reads_word? "where" _) fun a some => ?_
      obtain ⟨p, rfl⟩ := Option.isSome_iff_exists.mp some
      have predicates : (chained (fun ts => !endsPredicate ts) (wherePredicate g) ",").Reads
          (ts ++ (Token.operator ":" ++ (plusTokens (x :: xs) ++ Token.operator ",")))
          (.group .brace content opens closes :: us) := by
        rw [← List.append_assoc (Token.operator ":"), ← List.append_assoc]
        refine .steps (.next (reads_wherePredicate type path each deep) fun _ => ?_)
        refine .last (reads_operator? rfl rfl rfl) fun _ filled => .neg filled ?_
        exact .ahead (.pure trivial)
      exact .ahead (.neg noGenerics (.ahead (.neg goes.1.1 predicates.done)))

theorem IsClause.ends (isClause : IsClause n ts) :
    endsType (ts ++ .group .brace content opens closes :: us) = true ∧
      startsOperator "->" (ts ++ .group .brace content opens closes :: us) = false := by
  cases isClause <;> exact ⟨rfl, rfl⟩

/-- The signature of a function without generic parameters. -/
theorem isSignature {const result clause : List Token} {xs : List (List Token)}
    (constness : const = [] ∨ const = [Token.word "const"])
    (ordinary : i.text ∉ keywords) (inputs : IsInputs n xs) (isOutput : IsOutput n result)
    (isClause : IsClause n clause) : IsSignature n
      (const ++ ([Token.word "fn"] ++ ([i.token]
        ++ (Token.parens (commaTokens false xs) ++ (result ++ clause))))) where
  starts := by
    obtain rfl | rfl := constness
    · exact ⟨_, _, _, rfl, .inl rfl⟩
    · exact ⟨_, _, _, rfl, .inr rfl⟩
  isSignature us := by
    obtain rfl | rfl := constness <;> rfl
  read g deep content opens closes us := by
    have head : (word? "const").Reads const ([Token.word "fn"] ++ ([i.token]
        ++ (Token.parens (commaTokens false xs) ++ (result ++ clause)))
        ++ .group .brace content opens closes :: us) := by
      obtain rfl | rfl := constness
      · exact (skips_word? rfl).reads
      · exact (reads_word? "const" _).reads
    have full : (signatureWith g false).Reads
        (const ++ ([Token.word "fn"] ++ ([i.token]
          ++ (Token.parens (commaTokens false xs) ++ (result ++ clause)))))
        (.group .brace content opens closes :: us) := by
      refine .next head fun _ => .skip (skips_word? rfl) fun _ _ => ?_
      refine .skip (skips_word? rfl) fun _ _ => .given ?_
      have noAbi : abi?.ReadsAs [] ([Token.word "fn"] ++ ([i.token]
          ++ (Token.parens (commaTokens false xs) ++ (result ++ clause)))
          ++ .group .brace content opens closes :: us) (·.isAbsent = true) :=
        .ahead (.neg rfl (.pure rfl))
      refine .skip noAbi fun _ _ => .next (reads_word "fn" _) fun _ => ?_
      refine .bind (reads_name ordinary) fun _ _ => .skip (skips_generics rfl) fun _ _ => ?_
      refine .bind (reads_insideOpen (reads_inputs inputs deep)) fun _ closed => ?_
      refine .next (reads_output isOutput deep isClause.ends.1 isClause.ends.2) fun _ => ?_
      exact .last (reads_clause isClause deep) fun _ _ => (finishes closed.2).done
    exact full.done

end

end LogInterface.Parser
