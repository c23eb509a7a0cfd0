/-
# Proofs.Parser.ReadsItem -- items are read

Which item comes next is decided by its first word behind the visibility.  So a proof for an item
leaves the attributes to `isItem_of`, follows the choice to that word, and reads what the word
promises.  The members of traits and implementations are functions.
-/
import LogInterface.Proofs.Parser.ReadsSignature

namespace LogInterface.Parser

set_option autoImplicit false

variable {ts us rest : List Token} {g : Grammar} {i : Ident} {n : Nat} {as : List (List Token)}
  {seen sig content : List Token} {q r : Place}

/-- No attribute stands in front of a word, with or without a visibility. -/
theorem IsVisibility.sharp {w : String} {p : Place} (visible : IsVisibility seen)
    (us : List Token) : startsOperator "#" (seen ++ .ident w p :: us) = false := by
  obtain ⟨v, q, more, same, -⟩ := visible.starts us
  rw [same]
  rfl

theorem reads_verbatimSince (before : List Token) : (verbatimSince before).Reads [] rest :=
  .ahead (.pure trivial)

/-! ## Functions -/

/-- Every grammar that nests this deep reads the tokens as a member of an implementation. -/
structure IsMember (n : Nat) (ts : List Token) : Prop where
  some : ts ≠ []
  outer : ∀ us, startsInner (ts ++ us) = false
  read : ∀ g : Grammar, g.Deep n → ∀ us, (implMember g).Reads ts us

/-- Only two words start a signature. -/
theorem startsWord_function {w v : String} {p : Place} (isWord : w = "fn" ∨ w = "const")
    (foreign : v ≠ "fn" ∧ v ≠ "const") (us : List Token) :
    startsWord v (.ident w p :: us) = false := by
  refine beq_eq_false_iff_ne.mpr ?_
  rintro rfl
  exact isWord.elim foreign.1 foreign.2

theorem reads_functionItem {before : List Token} {attributes : List Attribute}
    (visible : IsVisibility seen) (signed : IsSignature n sig) (body : IsBody n content)
    (deep : g.Deep n) : (functionItem g before attributes true).Reads
      (seen ++ (sig ++ Token.braces content)) rest := by
  obtain ⟨w, p, more, rfl, isWord⟩ := signed.starts
  have notPub : w ≠ "pub" := by obtain rfl | rfl := isWord <;> decide
  refine .next (reads_visibility visible notPub) fun _ => ?_
  refine .skip (skips_optionalWord (startsWord_function isWord (by decide) _)) fun _ _ => ?_
  refine .next (signed.read g deep content _ _ rest) fun _ => .ahead (.neg rfl ?_)
  exact (reads_body (body.read g deep) (not_startsInner body.sharp)).done

theorem isMember (attributes : ∀ a ∈ as, IsAttribute n a) (visible : IsVisibility seen)
    (signed : IsSignature n sig) (body : IsBody n content) :
    IsMember n (as.flatten ++ (seen ++ (sig ++ Token.braces content))) where
  some none := by simp [Token.braces] at none
  outer us := by
    obtain ⟨w, p, more, rfl, -⟩ := signed.starts
    rw [List.append_assoc]
    refine outer_of_attributes attributes (not_startsInner ?_)
    rw [List.append_assoc]
    exact visible.sharp _
  read g deep us := by
    obtain ⟨w, p, more, rfl, isWord⟩ := id signed.starts
    have notPub : w ≠ "pub" := by obtain rfl | rfl := isWord <;> decide
    have isSignature := signed.isSignature (Token.braces content ++ us)
    rw [← List.append_assoc] at isSignature
    refine .ahead (.next (reads_outerAttributes attributes deep ?_) fun _ => ?_)
    · rw [List.append_assoc]
      exact visible.sharp _
    refine .ahead (.next (reads_visibility visible notPub) fun _ => .ahead ?_)
    refine .either (.given ?_) (.skip (skips_optionalWord ?other) fun _ _ => ?_)
    case other => exact startsWord_function isWord (by decide) _
    all_goals
      refine .ahead (.neg ?_ (.back (.pos isSignature ?_)))
      · exact Bool.and_eq_false_iff.mpr (.inr (by rw [isSignature]; rfl))
      · exact reads_functionItem visible signed body deep

/-! ## Items -/

/-- Every grammar that nests this deep reads the tokens as an item. -/
structure IsItem (n : Nat) (ts : List Token) : Prop where
  some : ts ≠ []
  outer : ∀ us, startsInner (ts ++ us) = false
  read : ∀ g : Grammar, g.Deep n → ∀ us, (itemHere g).Reads ts us

theorem IsItem.mono {m : Nat} (item : IsItem m ts) (less : m ≤ n) : IsItem n ts :=
  ⟨item.some, item.outer, fun g deep => item.read g (deep.mono less)⟩

/-- An item with attributes in front of it. -/
theorem isItem_of {w : String} {p : Place} {more : List Token}
    (attributes : ∀ a ∈ as, IsAttribute (n + 1) a) (visible : IsVisibility seen)
    (read : ∀ g : Grammar, g.Deep n → ∀ before attributes us,
      (itemOf g before attributes).Reads (seen ++ ([.ident w p] ++ more)) us) :
    IsItem (n + 1) (as.flatten ++ (seen ++ ([.ident w p] ++ more))) where
  some none := by simp at none
  outer us := by
    rw [List.append_assoc]
    refine outer_of_attributes attributes (not_startsInner ?_)
    rw [List.append_assoc]
    exact visible.sharp _
  read g deep us := by
    refine .ahead (.next (reads_outerAttributes attributes deep ?_) fun _ => ?_)
    · rw [List.append_assoc]
      exact visible.sharp _
    · obtain ⟨g, rfl, below⟩ := deep.inner
      exact read g below _ _ us

theorem outer_flatten {xs : List (List Token)}
    (each : ∀ x ∈ xs, ∀ us, startsInner (x ++ us) = false) :
    startsInner xs.flatten = false := by
  cases xs with
  | nil => rfl
  | cons x xs => exact each x List.mem_cons_self _

/-- Items, as they stand in a file. -/
theorem reads_items {xs : List (List Token)} (each : ∀ x ∈ xs, IsItem n x) (deep : g.Deep n) :
    (many (itemHere g)).Reads xs.flatten [] :=
  reads_many fun x member => ⟨(each x member).some, (each x member).read g deep⟩

theorem isItem_mod {xs : List (List Token)} (attributes : ∀ a ∈ as, IsAttribute (n + 1) a)
    (visible : IsVisibility seen) (ordinary : i.text ∉ keywords) (each : ∀ x ∈ xs, IsItem n x) :
    IsItem (n + 1) (as.flatten
      ++ (seen ++ ([Token.word "mod"] ++ ([i.token] ++ Token.braces xs.flatten)))) := by
  refine isItem_of attributes visible fun g deep before attributes us => ?_
  refine .ahead (.next (reads_visibility visible (by decide)) fun _ => .ahead (.neg rfl (.back ?_)))
  refine .neg rfl (.neg rfl (.neg rfl (.neg rfl (.neg rfl (.neg rfl (.pos rfl ?_))))))
  refine .next (reads_visibility visible (by decide)) fun _ => ?_
  refine .skip (skips_optionalWord rfl) fun _ _ => ?_
  refine .next (reads_wordTree "mod" _) fun _ => .ahead ?_
  refine .neg (startsWord_name ordinary (by decide) _) ?_
  refine .next (reads_name ordinary).reads fun _ => .ahead (.neg rfl (.pos rfl ?_))
  have outer := outer_flatten fun x member => (each x member).outer
  exact (reads_body (reads_items each deep) outer).done

/-- Generic parameters, if there are any. -/
inductive IsGenerics (n : Nat) : List Token → Prop where
  | none : IsGenerics n []
  | params {xs : List (List Token)} (trailing : Bool) : (∀ x ∈ xs, IsParam n x) →
      IsGenerics n (Token.operator "<" ++ (commaTokens trailing xs ++ Token.operator ">"))

theorem IsGenerics.read (params : IsGenerics n ts) (deep : g.Deep n)
    (ends : startsOperator "<" rest = false) : (generics g).Reads ts rest := by
  cases params with
  | none => exact skips_generics ends
  | params trailing each => exact reads_generics each deep

/-- A field of a struct with a name. -/
inductive IsField (n : Nat) : List Token → Prop where
  | named {seen ts : List Token} {i : Ident} : IsVisibility seen → i.text ∉ keywords → IsType n ts →
      IsField n (seen ++ i.token :: (Token.operator ":" ++ ts))

theorem reads_namedField {fields : Parser Tree} (field : IsField n ts) (deep : g.Deep n)
    (ends : endsType rest = true) : (namedField g fields).Reads ts rest := by
  obtain @⟨seen, ts, i, visible, ordinary, type⟩ := field
  have notPub : i.text ≠ "pub" := fun same => ordinary (same ▸ by decide)
  have named : startsWord "_" (i.token :: (Token.operator ":" ++ ts) ++ rest) = false :=
    startsWord_name ordinary (by decide) _
  have sharp :
      startsOperator "#" (seen ++ i.token :: (Token.operator ":" ++ ts) ++ rest) = false := by
    rw [List.append_assoc]
    exact visible.sharp _
  refine .skip (skips_outerAttributes sharp) fun _ _ => ?_
  refine .next (reads_visibility visible notPub) fun _ => .ahead (.neg named ?_)
  refine .next (reads_name ordinary).reads fun _ => ?_
  refine .next (t := Token.operator ":") (reads_operatorTrees rfl rfl) fun _ => .neg named ?_
  exact (type g deep true rest ends).done

theorem IsField.some (field : IsField n ts) : ts ≠ [] := by
  cases field
  simp

theorem reads_namedFields {xs : List (List Token)} {trailing : Bool} (each : ∀ x ∈ xs, IsField n x)
    (deep : g.Deep n) :
    (namedFields g).Reads (Token.braces (commaTokens trailing xs)) rest :=
  .ahead (reads_grouped (reads_commaSeparated (endsType · = true) rfl (fun _ => rfl)
    fun x member =>
      ⟨(each x member).some, fun _ ends => reads_namedField (each x member) deep ends⟩))

/-- A struct with fields in braces, or without any. -/
theorem isItem_struct {params tail : List Token} (attributes : ∀ a ∈ as, IsAttribute (n + 1) a)
    (visible : IsVisibility seen) (ordinary : i.text ∉ keywords) (generic : IsGenerics n params)
    (fields : tail = Token.operator ";" ∨ ∃ trailing xs,
      tail = Token.braces (commaTokens trailing xs) ∧ ∀ x ∈ xs, IsField n x) :
    IsItem (n + 1)
      (as.flatten ++ (seen ++ ([Token.word "struct"] ++ ([i.token] ++ (params ++ tail))))) := by
  refine isItem_of attributes visible fun g deep before attributes us => ?_
  refine .ahead (.next (reads_visibility visible (by decide)) fun _ => .ahead (.neg rfl (.back ?_)))
  refine .neg rfl (.neg rfl (.neg rfl (.neg rfl (.neg rfl (.neg rfl (.neg rfl (.neg rfl
    (.pos rfl ?_))))))))
  refine .next (reads_visibility visible (by decide)) fun _ => ?_
  refine .next (reads_wordTree "struct" _) fun _ => ?_
  refine .next (reads_name ordinary).reads fun _ => ?_
  obtain rfl | ⟨trailing, xs, rfl, each⟩ := fields
  · refine .next (generic.read deep rfl) fun _ => ?_
    refine .ahead (.skip (skips_whereClause rfl) fun _ _ => ?_)
    exact .ahead (.neg rfl (.neg rfl (.pos rfl (reads_operatorTrees rfl rfl).done)))
  · refine .next (generic.read deep rfl) fun _ => ?_
    refine .ahead (.skip (skips_whereClause rfl) fun _ _ => ?_)
    exact .ahead (.neg rfl (.pos rfl (reads_namedFields each deep).done))

/-! ## Constants and imports -/

theorem reads_constDecl {type value : List Token} {attributes : List Attribute}
    {visibility preset : Tree} (ordinary : i.text ∉ keywords) (isType : IsType n type)
    (isValue : IsValue n true value) (deep : g.Deep (n + 1)) :
    (constDecl g attributes visibility preset).Reads
      ([Token.word "const"] ++ ([i.token] ++ (Token.operator ":" ++ (type
        ++ (Token.operator "=" ++ (value ++ Token.operator ";")))))) rest := by
  have wild (us : List Token) : startsWild (i.token :: us) = true := by
    rw [startsWild, startsName_token ordinary]
    rfl
  have named (us : List Token) : constName.Reads [i.token] us :=
    .ahead (.pos (wild us) (reads_anyWord i).done)
  refine .next (reads_wordTree "const" _) fun _ => .next (named _) fun _ => .ahead ?_
  refine .skip (skips_generics rfl) fun _ _ => .next (reads_operatorTrees rfl rfl) fun _ => ?_
  refine .next (isType g (deep.mono (Nat.le_succ n)) true _ rfl) fun _ => ?_
  refine .bind (reads_operator? rfl rfl rfl) fun _ filled => .neg filled ?_
  refine .next (isValue.whole deep (.semicolon rest)) fun _ => .ahead ?_
  exact .skip (skips_whereClause rfl) fun _ _ => (reads_operatorTrees rfl rfl).done

theorem isItem_const {type value : List Token} (attributes : ∀ a ∈ as, IsAttribute (n + 2) a)
    (visible : IsVisibility seen) (ordinary : i.text ∉ keywords) (isType : IsType n type)
    (isValue : IsValue n true value) :
    IsItem (n + 2) (as.flatten ++ (seen ++ ([Token.word "const"] ++ ([i.token]
      ++ (Token.operator ":" ++ (type ++ (Token.operator "=" ++ (value
        ++ Token.operator ";")))))))) := by
  refine isItem_of attributes visible fun g deep before attributes us => ?_
  have other {w : String} (keyword : w ∈ keywords) (us : List Token) :
      startsWord w (i.token :: us) = false :=
    startsWord_name ordinary keyword us
  have notFunction (us : List Token) :
      startsSignature false (Token.word "const" :: i.token :: us) = false := by
    have behind : skipWord "const" (Token.word "const" :: i.token :: us) = i.token :: us := rfl
    have none {w : String} (keyword : w ∈ keywords) :
        skipWord w (i.token :: us) = i.token :: us := by
      rw [skipWord, other keyword]
      rfl
    simp only [startsSignature, behind, none (by decide : "async" ∈ keywords),
      none (by decide : "unsafe" ∈ keywords), other (by decide : "extern" ∈ keywords),
      other (by decide : "fn" ∈ keywords), Bool.false_and, Bool.false_eq_true, if_false]
  refine .ahead (.next (reads_visibility visible (by decide)) fun _ => .ahead (.neg rfl (.back ?_)))
  refine .neg (notFunction _) (.neg rfl (.neg rfl (.neg rfl (.pos rfl ?_))))
  refine .next (reads_visibility visible (by decide)) fun _ => ?_
  refine .last (reads_constDecl ordinary isType isValue deep) fun d _ => ?_
  exact .either (.pure trivial) (reads_verbatimSince _)

/-- The import of all that the parent module sees. -/
theorem isItem_import (attributes : ∀ a ∈ as, IsAttribute (n + 1) a) :
    IsItem (n + 1) (as.flatten ++ ([] ++ ([Token.word "use"] ++ (([Token.word "super"]
      ++ (Token.operator "::" ++ Token.operator "*")) ++ Token.operator ";")))) := by
  refine isItem_of attributes .none fun g deep before attributes us => ?_
  refine .ahead (.next (reads_visibility .none (by decide)) fun _ => .ahead (.neg rfl (.back ?_)))
  refine .neg rfl (.neg rfl (.pos rfl ?_))
  refine .next (reads_visibility .none (by decide)) fun _ => ?_
  refine .next (reads_wordTree "use" _) fun _ => .skip (skips_operator? rfl) fun _ _ => ?_
  have tree {fuel : Nat} {root : Bool} : (useTree (fuel + 2) root).Reads ([Token.word "super"]
      ++ (Token.operator "::" ++ Token.operator "*")) (Token.operator ";" ++ us) := by
    have glob : (useTree (fuel + 1) false).Reads (Token.operator "*") (Token.operator ";" ++ us) :=
      .ahead (.neg rfl (.pos rfl (reads_operatorTrees rfl rfl).done))
    refine .ahead (.pos rfl (.next (reads_anyWord ⟨"super", .nowhere⟩).reads fun _ => ?_))
    refine .ahead (.pos rfl ?_)
    exact .next (reads_operatorTrees rfl rfl) fun _ => glob.done
  refine .steps (.next tree fun t => ?_)
  exact .last (reads_operatorTrees rfl rfl) fun _ _ =>
    .either (reads_verbatimSince _) (.pure trivial)

/-! ## Implementations -/

/-- What is implemented: a type, or a trait for a type. -/
inductive IsImplemented (n : Nat) : List Token → Prop where
  | type {ts : List Token} : IsType n ts → PathAhead ts → IsImplemented n ts
  | trait {ts us : List Token} : IsType n ts → IsType n us → PathAhead ts →
      IsImplemented n (ts ++ ([Token.word "for"] ++ us))

theorem PathAhead.append (ahead : PathAhead ts) (us : List Token) : PathAhead (ts ++ us) := by
  cases ahead with
  | word segment more => exact .word segment _
  | colons p q spacing more => exact .colons p q spacing _

theorem IsImplemented.ahead (implemented : IsImplemented n ts) : PathAhead ts := by
  cases implemented with
  | type _ ahead => exact ahead
  | trait _ _ ahead => exact ahead.append _

theorem reads_implementer (implemented : IsImplemented n ts) (deep : g.Deep n) :
    (implementer g).Reads ts (.group .brace content q r :: us) := by
  have ahead := implemented.ahead.append (.group .brace content q r :: us)
  have positive : (startsOperator "!" (ts ++ .group .brace content q r :: us)
      && !startsGroup .brace (skip (ts ++ .group .brace content q r :: us))) = false := by
    rw [ahead.noOperator rfl (by decide)]
    rfl
  refine .ahead (.here fun _ => .neg positive (.given ?_))
  cases implemented with
  | type type _ =>
      refine .last (type g deep true _ rfl) fun first _ => .skip (skips_word? rfl) ?_
      rintro _ rfl
      exact .neg positive (.pure trivial)
  | trait type implementing _ =>
      refine .next (type g deep true _ rfl) fun first => ?_
      refine .bind (reads_word? "for" _) fun a some => ?_
      obtain ⟨p, rfl⟩ := Option.isSome_iff_exists.mp some
      exact (implementing g deep true _ rfl).done

/-- Generic parameters of an implementation, if there are any. -/
inductive IsImplGenerics (n : Nat) : List Token → Prop where
  | none : IsImplGenerics n []
  | params {i : Ident} {bounds : List (List Token)} {xs : List (List Token)} (trailing : Bool) :
      i.text ∉ keywords → (∀ x ∈ ([i.token] ++ colonTokens bounds) :: xs, IsParam n x) →
        IsImplGenerics n (Token.operator "<" ++ (commaTokens trailing
          (([i.token] ++ colonTokens bounds) :: xs) ++ Token.operator ">"))

theorem startsGenerics_name {tail : List Token} (ordinary : i.text ∉ keywords)
    (behind : (startsOperator ":" tail && !startsOperator "::" tail
      || [",", ">", "="].any (startsOperator · tail)) = true) :
    startsGenerics (Token.operator "<" ++ i.token :: tail) = true := by
  have named := startsName_token ordinary tail
  have second : skip (Token.operator "<" ++ i.token :: tail) = i.token :: tail := rfl
  have third : skip (i.token :: tail) = tail := rfl
  have opens : startsOperator "<" (Token.operator "<" ++ i.token :: tail) = true := rfl
  simp only [startsGenerics, second, third, opens, named, behind, Bool.or_true, Bool.and_true]

theorem IsImplGenerics.starts (generic : IsImplGenerics n ts) (ahead : PathAhead us) :
    startsGenerics (ts ++ us) = !ts.isEmpty := by
  cases generic with
  | none =>
      rw [startsGenerics, List.nil_append, ahead.noOperator rfl (by decide)]
      rfl
  | @params i bounds xs trailing ordinary each =>
      obtain ⟨more, split, behind⟩ :=
        commaTokens_cons trailing ([i.token] ++ colonTokens bounds) xs
      rw [split]
      refine startsGenerics_name ordinary (?_ :
        (startsOperator ":" (colonTokens bounds ++ more ++ Token.operator ">" ++ us)
          && !startsOperator "::" _ || [",", ">", "="].any (startsOperator · _)) = true)
      cases bounds with
      | nil => obtain ⟨rfl, -⟩ | rfl := behind <;> rfl
      | cons x xs => rfl

theorem IsImplGenerics.read (generic : IsImplGenerics n ts) (some : ts.isEmpty = false)
    (deep : g.Deep n) : (generics g).Reads ts us := by
  cases generic with
  | none => cases some
  | params trailing _ each => exact reads_generics each deep

/-- An implementation, whose members are functions. -/
theorem isItem_impl {params implemented : List Token} {xs : List (List Token)}
    (attributes : ∀ a ∈ as, IsAttribute (n + 1) a) (generic : IsImplGenerics n params)
    (implementing : IsImplemented n implemented) (each : ∀ x ∈ xs, IsMember n x) :
    IsItem (n + 1) (as.flatten ++ ([] ++ ([Token.word "impl"] ++ (params ++ (implemented
      ++ Token.braces xs.flatten))))) := by
  refine isItem_of attributes .none fun g deep before attributes us => ?_
  have ahead := implementing.ahead.append (Token.braces xs.flatten ++ us)
  rw [← List.append_assoc] at ahead
  have constant : (startsWord "const" (implemented ++ Token.braces xs.flatten ++ us)
      || (startsOperator "?" (implemented ++ Token.braces xs.flatten ++ us)
        && startsWord "const" (skip (implemented ++ Token.braces xs.flatten ++ us))))
      = false := by
    rw [ahead.noWord (by decide), ahead.noOperator rfl (by decide)]
    rfl
  have starts := generic.starts ahead
  rw [← List.append_assoc] at starts
  refine .ahead (.next (reads_visibility .none (by decide)) fun _ => .ahead (.neg rfl (.back ?_)))
  refine .neg rfl (.neg rfl (.neg rfl (.neg rfl (.neg rfl (.neg rfl (.neg rfl (.neg rfl
    (.neg rfl (.neg rfl (.neg rfl (.neg rfl (.neg rfl (.pos rfl ?_)))))))))))))
  refine .next (reads_visibility .none (by decide)) fun _ => ?_
  refine .skip (skips_optionalWord rfl) fun _ _ => .skip (skips_optionalWord rfl) fun _ _ => ?_
  refine .next (reads_wordTree "impl" _) fun _ => .ahead ?_
  have members : (body g (many (implMember g))).Reads (Token.braces xs.flatten) us :=
    reads_body (reads_many fun x member => ⟨(each x member).some, (each x member).read g deep⟩)
      (outer_flatten fun x member => (each x member).outer)
  cases empty : params.isEmpty with
  | true =>
      obtain rfl := List.isEmpty_iff.mp empty
      rw [List.nil_append] at starts ⊢
      refine .neg starts (.given (.ahead (.neg constant ?_)))
      refine .next (reads_implementer implementing deep) fun r => ?_
      refine .skip (skips_whereClause rfl) fun _ _ => .last members fun _ _ => ?_
      exact .either (reads_verbatimSince _) (.pure trivial)
  | false =>
      rw [empty] at starts
      refine .pos starts (.next (generic.read empty deep) fun _ => .ahead (.neg constant ?_))
      refine .next (reads_implementer implementing deep) fun r => ?_
      refine .skip (skips_whereClause rfl) fun _ _ => .last members fun _ _ => ?_
      exact .either (reads_verbatimSince _) (.pure trivial)

/-! ## Traits -/

/-- Every grammar that nests this deep reads the tokens as an item of a trait. -/
structure IsTraitItem (n : Nat) (ts : List Token) : Prop where
  some : ts ≠ []
  outer : ∀ us, startsInner (ts ++ us) = false
  read : ∀ g : Grammar, g.Deep n → ∀ us, (traitItem g).Reads ts us

theorem reads_traitMethod {attributes : List Attribute} (signed : IsSignature n sig)
    (isBody : IsBody n content) (deep : g.Deep n) :
    (method g attributes).Reads (sig ++ Token.braces content) rest := by
  refine .next (signed.read g deep content _ _ rest) fun _ => .ahead (.pos rfl ?_)
  have inner : Reads (do
      let inner ← innerAttributes g
      return (inner, ← g.statements)) content [] :=
    .skip (skips_innerAttributes (by simpa using not_startsInner isBody.sharp)) fun _ _ =>
      (isBody.read g deep).done
  exact (reads_inside inner).done

theorem isTraitItem (attributes : ∀ a ∈ as, IsAttribute n a) (signed : IsSignature n sig)
    (isBody : IsBody n content) :
    IsTraitItem n (as.flatten ++ (sig ++ Token.braces content)) where
  some none := by simp [Token.braces] at none
  outer us := by
    obtain ⟨w, p, more, rfl, -⟩ := signed.starts
    rw [List.append_assoc]
    exact outer_of_attributes attributes rfl
  read g deep us := by
    obtain ⟨w, p, more, rfl, isWord⟩ := id signed.starts
    have isSignature := signed.isSignature (Token.braces content ++ us)
    rw [← List.append_assoc] at isSignature
    refine .ahead (.next (reads_outerAttributes attributes deep rfl) fun _ => ?_)
    have noPub : visibility.ReadsAs [] (.ident w p :: more ++ Token.braces content
        ++ us) (·.isAbsent = true) :=
      (skips_word? (startsWord_function isWord (by decide) _)).last (by
        rintro _ rfl
        exact .pure rfl)
    refine .skip noPub fun seen absent => ?_
    refine .skip (skips_word? (startsWord_function isWord (by decide) _)) ?_
    rintro _ rfl
    have item (attributes : List Attribute) (before : List Token) (plain : Bool) :
        (plainTraitItem g before attributes plain).Reads
          (.ident w p :: more ++ Token.braces content) us :=
      .ahead (.pos isSignature (reads_traitMethod signed isBody deep).done)
    exact (item _ _ _).last fun _ _ => .either (.pure trivial) (reads_verbatimSince _).done

/-- A trait with one supertrait, whose items are methods. -/
theorem isItem_trait {bound : List Token} {xs : List (List Token)}
    (attributes : ∀ a ∈ as, IsAttribute (n + 1) a) (visible : IsVisibility seen)
    (ordinary : i.text ∉ keywords) (isBound : IsBound n bound) (each : ∀ x ∈ xs, IsTraitItem n x) :
    IsItem (n + 1) (as.flatten ++ (seen ++ ([Token.word "trait"] ++ ([i.token]
      ++ (Token.operator ":" ++ (bound ++ Token.braces xs.flatten)))))) := by
  refine isItem_of attributes visible fun g deep before attributes us => ?_
  refine .ahead (.next (reads_visibility visible (by decide)) fun _ => .ahead (.neg rfl (.back ?_)))
  refine .neg rfl (.neg rfl (.neg rfl (.neg rfl (.neg rfl (.neg rfl (.neg rfl (.neg rfl
    (.neg rfl (.neg rfl (.neg rfl (.pos rfl ?_)))))))))))
  have head : (traitHead g attributes).Reads (seen ++ ([.ident "trait" .nowhere] ++ [i.token]))
      (Token.operator ":" ++ (bound ++ Token.braces xs.flatten) ++ us) := by
    refine .next (reads_visibility visible (by decide)) fun _ => ?_
    refine .skip (skips_word? rfl) fun _ _ => .skip (skips_word? rfl) fun _ _ => ?_
    refine .next (reads_word "trait" _) fun _ => .last (reads_name ordinary) fun _ _ => ?_
    exact (skips_generics rfl).done
  have split : seen ++ ([.ident "trait" .nowhere] ++ ([i.token] ++ (Token.operator ":"
        ++ (bound ++ Token.braces xs.flatten))))
      = seen ++ ([.ident "trait" .nowhere] ++ [i.token]) ++ (Token.operator ":"
        ++ (bound ++ Token.braces xs.flatten)) := by
    simp only [List.append_assoc]
  have goes := isBound.starts (Token.braces xs.flatten ++ us)
  simp only [endsBounds, endsPredicate, Bool.or_eq_false_iff] at goes
  have supertrait : (separated endsSupertraits
      (g.bound { capture := false, const := true }) "+").Reads
      bound (Token.braces xs.flatten ++ us) := by
    refine .steps (.ahead (.neg ?_ ?_))
    · rw [endsSupertraits, goes.2, goes.1.1.1.1.1.1.2]
      rfl
    · exact .last (isBound.read g deep _ _ rfl) fun _ _ => .ahead (.pos rfl (.pure trivial))
  have items : (many (traitItem g)).Reads xs.flatten [] :=
    reads_many fun x member => ⟨(each x member).some, (each x member).read g deep⟩
  have members : Reads (do
      let inner ← innerAttributes g
      return (inner, ← many (traitItem g))) xs.flatten [] := by
    refine .skip (skips_innerAttributes ?_) fun _ _ => items.done
    rw [List.append_nil]
    exact outer_flatten fun x member => (each x member).outer
  rw [split]
  refine .next head fun h => .ahead (.pos rfl ?_)
  have declared : (traitBody g h).Reads
      (Token.operator ":" ++ (bound ++ Token.braces xs.flatten)) us := by
    refine .bind (reads_operator? rfl rfl rfl) fun _ filled => .neg filled ?_
    refine .next supertrait fun _ => .skip (skips_whereClause rfl) fun _ _ => ?_
    exact (reads_inside members).done
  exact declared.done

end LogInterface.Parser
