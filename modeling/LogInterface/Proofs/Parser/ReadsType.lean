/-
# Proofs.Parser.ReadsType -- types, bounds and generic parameters are read

Types, bounds and expressions contain each other, so the nesting of a grammar bounds what it reads:
`IsType n ts` says that every grammar that nests `n` deep reads the type `ts`.  The types are those
of generated source: paths, with types and lifetimes between angle brackets, references and slices.
-/
import LogInterface.Proofs.Parser.ReadsPath

namespace LogInterface.Parser

set_option autoImplicit false

variable {ts us rest : List Token} {g : Grammar} {i : Ident} {n : Nat}

/-! ## Types -/

/-- Every grammar that nests this deep reads the tokens as a type. -/
def IsType (n : Nat) (ts : List Token) : Prop :=
  ∀ g : Grammar, g.Deep n → ∀ plus rest, endsType rest = true → (g.type plus).Reads ts rest

theorem IsType.mono {m : Nat} (type : IsType m ts) (less : m ≤ n) : IsType n ts :=
  fun g deep => type g (deep.mono less)

theorem reads_typeOfPath {plus : Bool} (children : (pathChildren g false).Reads ts rest)
    (ahead : PathAhead (ts ++ rest)) (builtin : startsBuiltin (ts ++ rest) = false)
    (ends : endsType rest = true) : (typeOf g plus).Reads ts rest := by
  obtain ⟨-, bang, plusSign⟩ := endsType_iff.mp ends
  have qualified : (qualifiedPath g false).Reads ts rest :=
    .ahead (.neg (ahead.noOperator rfl (by decide)) (children.done))
  refine .ahead (.neg (ahead.noWord (by decide)) (.neg (ahead.noGroup _)
    (.neg (ahead.noneOf (by decide)) (.neg builtin (.pos ahead.startsPath ?_)))))
  refine qualified.last fun p _ => .ahead ?_
  cases is : p.is .qualifiedPath with
  | true => exact .pos rfl (.pure trivial)
  | false =>
      have noCall : (startsBang rest && isPlainPath p) = false := by
        rw [startsBang, bang]
        rfl
      have noBound : (!Tree.absent.isAbsent || (plus && startsOperator "+" rest)) = false := by
        rw [plusSign, Bool.and_false]
        rfl
      exact .neg rfl (.neg noCall (.neg noBound (.pure trivial)))

theorem IsPath.type (path : IsPath ts) : IsType 1 ts := by
  intro g deep plus rest ends
  obtain ⟨g, rfl, -⟩ := deep.inner
  have ends' := (endsType_iff.mp ends).1
  obtain ⟨colons, angle, sharp, -⟩ := endsPath_iff.mp ends'
  obtain ⟨p, written⟩ := path
  exact reads_typeOfPath (reads_plainPath ⟨p, written⟩ colons fun _ => angle)
    (written.ahead rest) (written.noBuiltin sharp) ends

/-! ## Arguments -/

/-- Does the list of type arguments go on or end here? -/
def endsArgument (ts : List Token) : Bool :=
  endsType ts && !startsOperator "=" ts && !startsOperator ":" ts

theorem endsArgument_iff : endsArgument ts = true ↔ endsType ts = true ∧
    startsOperator "=" ts = false ∧ startsOperator ":" ts = false := by
  simp [endsArgument, and_assoc]

/-- Every grammar that nests this deep reads the tokens as an argument of a type. -/
def IsArgument (n : Nat) (ts : List Token) : Prop :=
  ∀ us, startsOperator ">" (ts ++ us) = false ∧
    ∀ g : Grammar, g.Deep n → endsArgument us = true → (genericArgument g).Reads ts us

theorem reads_lifetime (p q : Place) (text : String) :
    lifetime.Reads [.punct '\'' .joint p, .ident text q] rest := by
  intro s tokens
  refine ⟨.node .lifetime [.token (.punct '\'' .joint p), .token (.ident text q)], trivial, ?_⟩
  rw [lifetime, ahead_bind,
    show s.tokens = .punct '\'' .joint p :: .ident text q :: rest from tokens]
  rfl

theorem isArgument_lifetime (p q : Place) (text : String) :
    IsArgument 0 [.punct '\'' .joint p, .ident text q] := by
  refine fun us => ⟨rfl, fun g _ ends => .ahead (.pos ?_ (reads_lifetime p q text))⟩
  obtain ⟨-, -, plus⟩ := endsType_iff.mp (endsArgument_iff.mp ends).1
  show (true && !startsOperator "+" us) = true
  rw [plus]
  rfl

theorem IsType.argument (type : IsType n ts) (ahead : ∀ us, PathAhead (ts ++ us)) :
    IsArgument n ts := by
  refine fun us => ⟨(ahead us).noOperator rfl (by decide), fun g deep ends => ?_⟩
  obtain ⟨ends, equals, colon⟩ := endsArgument_iff.mp ends
  refine .ahead (.neg ?_ (.neg ?_ ?_))
  · rw [(ahead us).noLifetime]
    rfl
  · rw [(ahead us).noLiteral, (ahead us).noGroup]
    rfl
  · refine (type g deep true us ends).last fun t _ => ?_
    cases onlySegment? t with
    | none => exact .pure trivial
    | some parts =>
        refine .skip (skips_operator? equals) fun _ none => ?_
        subst none
        refine .neg rfl (.skip (skips_operator? colon) fun _ none => ?_)
        subst none
        exact .pos rfl (.pure trivial)

/-- A name with arguments is read as a segment. -/
theorem reads_angleSegment {xs : List (List Token)} {spacing : Spacing} {p : Place}
    (ordinary : i.text ∉ keywords) (each : ∀ x ∈ xs, IsArgument n x) (deep : g.Deep n) :
    (pathSegment g false).Reads
      ([i.token] ++ (Token.operator "<" ++ (commaTokens false xs ++ [.punct '>' spacing p])))
      rest := by
  have arguments : (angleArguments g []).Reads
      (Token.operator "<" ++ (commaTokens false xs ++ [.punct '>' spacing p])) rest := by
    refine .bind (reads_operatorTrees rfl rfl) fun _ _ => ?_
    refine .bind (reads_separated (endsArgument · = true) rfl rfl (fun _ => rfl) (fun _ => rfl)
      fun x member us => ⟨(each x member us).1, (each x member us).2 g deep⟩) fun _ _ => ?_
    exact (reads_operatorTrees rfl rfl).done
  have one : startsOneOf segmentWords ([i.token] ++ (Token.operator "<"
      ++ (commaTokens false xs ++ [.punct '>' spacing p])) ++ rest) = false :=
    List.any_eq_false.mpr fun w member => Bool.eq_false_iff.mp
      (startsWord_name ordinary ((by decide : ∀ w ∈ segmentWords, w ∈ keywords) w member) _)
  refine .ahead (.neg one (.ahead (.neg (startsWord_name ordinary (by decide) _) ?_)))
  exact .bind (reads_name ordinary) fun _ _ => .ahead (.pos rfl (arguments.done))

/-- A path that ends in a name with arguments. -/
theorem IsPathTo.angleType {xs : List (List Token)} (spacing : Spacing) (p : Place)
    (path : IsPathTo i ts) (ordinary : i.text ∉ keywords) (each : ∀ x ∈ xs, IsArgument n x) :
    IsType (n + 1)
      (ts ++ (Token.operator "<" ++ (commaTokens false xs ++ [.punct '>' spacing p]))) := by
  intro g deep plus rest ends
  obtain ⟨g, rfl, below⟩ := deep.inner
  obtain ⟨colons, -, -, -⟩ := endsPath_iff.mp (endsType_iff.mp ends).1
  obtain ⟨path, written, ending⟩ := path
  refine reads_typeOfPath (reads_pathChildren written ?_ colons) ?_ ?_ ends
  · rintro j isLast -
    cases Option.some.inj (ending.symm.trans isLast)
    exact reads_angleSegment ordinary each below
  · rw [List.append_assoc]
    exact written.ahead _
  · rw [List.append_assoc]
    exact written.noBuiltin rfl

/-! ## References and slices -/

theorem reads_referenceType {mutable : List Token} (content : (g.type false).Reads ts rest)
    (mark : mutable = [] ∨ ∃ p, mutable = [.ident "mut" p])
    (bare : startsLifetime (ts ++ rest) = false) (shared : startsWord "mut" (ts ++ rest) = false) :
    (referenceType g).Reads (Token.operator "&" ++ (mutable ++ ts)) rest := by
  refine .bind (reads_operatorTrees rfl rfl) fun _ _ => ?_
  have unmarked : startsLifetime (mutable ++ ts ++ rest) = false := by
    obtain rfl | ⟨p, rfl⟩ := mark
    · exact bare
    · rfl
  refine .skip (skips_lifetime? unmarked) fun _ _ => ?_
  obtain rfl | ⟨p, rfl⟩ := mark
  · exact .skip (skips_optionalWord shared) fun _ _ => content.done
  · exact .bind (reads_optionalWord "mut" p) fun _ _ => content.done

theorem IsType.reference {mutable : List Token} (type : IsType n ts)
    (mark : mutable = [] ∨ ∃ p, mutable = [.ident "mut" p])
    (bare : ∀ us, startsLifetime (ts ++ us) = false ∧ startsWord "mut" (ts ++ us) = false) :
    IsType (n + 1) (Token.operator "&" ++ (mutable ++ ts)) := by
  intro g deep plus rest ends
  obtain ⟨g, rfl, below⟩ := deep.inner
  exact .ahead (reads_referenceType (type _ below false rest ends) mark (bare rest).1 (bare rest).2)

theorem IsType.slice (type : IsType n ts) (opens closes : Place) :
    IsType (n + 1) [.group .bracket ts opens closes] := by
  intro g deep plus rest ends
  obtain ⟨g, rfl, below⟩ := deep.inner
  refine .ahead ?_
  show (squareType _).Reads _ _
  have content : Reads (do
      let t ← g.type true
      if startsOperator ";" (← Parser.ahead) then
        let semicolon ← operatorTrees ";"
        return (Kind.arrayType, t :: semicolon ++ [← whole g])
      else return (.sliceType, [t])) ts [] :=
    (type _ below true [] rfl).last fun _ _ => .ahead (.pure trivial)
  exact (reads_inside content).done

/-! ## Bounds -/

/-- Does a list of bounds end here, or what they belong to? -/
def endsBounds (ts : List Token) : Bool :=
  endsPredicate ts || startsOperator ">" ts || startsWord "where" ts

/-- Every grammar that nests this deep reads the tokens as a bound. -/
structure IsBound (n : Nat) (ts : List Token) : Prop where
  starts : ∀ us, endsBounds (ts ++ us) = false
  read : ∀ g : Grammar, g.Deep n → ∀ forms rest, endsPath rest = true →
    (g.bound forms).Reads ts rest

theorem IsBound.mono {m : Nat} (bound : IsBound m ts) (less : m ≤ n) : IsBound n ts :=
  ⟨bound.starts, fun g deep => bound.read g (deep.mono less)⟩

theorem reads_boundPath (path : IsPath ts) (ends : endsPath rest = true) :
    (boundPath g).Reads ts rest := by
  obtain ⟨colons, angle, -, round⟩ := endsPath_iff.mp ends
  refine (reads_plainPath path colons fun _ => angle).last fun children _ => ?_
  refine .ahead (.neg ?_ (.pure trivial))
  have none : startsRound rest = false := by
    rw [startsRound, round, colons]
    rfl
  show (lastIsPlain children && startsRound rest) = false
  rw [none, Bool.and_false]

theorem reads_traitBound {forms : BoundForms} {mark : List Token} (path : IsPath ts)
    (marked : mark = [] ∨ mark = Token.operator "?") (ends : endsPath rest = true) :
    (traitBound g forms).ReadsAs (mark ++ ts) rest (·.2 = false) := by
  obtain ⟨_, written⟩ := id path
  have ahead := written.ahead rest
  have pure_absent {t : Tree} {us : List Token} (absent : t.isAbsent = true) :
      ReadsAs (pure t) [] us (·.isAbsent = true) := .pure absent
  have noBinder {us : List Token} (other : startsWord "for" us = false) :
      (binder? g).ReadsAs [] us (·.isAbsent = true) := .ahead (.neg other (.pure rfl))
  have noMark {us : List Token} (group : startsGroup .bracket us = false)
      (word : startsWord "const" us = false) : (constMark forms).ReadsAs [] us (· = false) :=
    .ahead (.here fun _ => .neg group (.neg word (.pure rfl)))
  obtain rfl | rfl := marked
  · refine .skip (noBinder (ahead.noWord (by decide))) fun early absent => ?_
    refine .skip (noMark (ahead.noGroup _) (ahead.noWord (by decide))) fun _ plain => ?_
    refine .here fun _ => ?_
    refine .skip (skips_operator? (ahead.noOperator rfl (by decide))) fun _ none => ?_
    subst none
    refine .neg (by rw [absent]; rfl) (.skip (pure_absent absent) fun binder absent => ?_)
    refine (reads_boundPath path ends).last fun _ _ => .neg (by rw [absent]; rfl) (.pure plain)
  · refine .skip (noBinder rfl) fun early absent => ?_
    refine .skip (noMark rfl rfl) fun _ plain => ?_
    refine .here fun _ => .bind (reads_operator? rfl rfl rfl) fun _ some => ?_
    refine .pos (by rw [absent, some]; rfl) ?_
    refine .skip (noBinder (ahead.noWord (by decide))) fun binder absent => ?_
    refine (reads_boundPath path ends).last fun _ _ => .neg (by rw [absent]; rfl) (.pure plain)

theorem reads_boundOf {forms : BoundForms} {mark : List Token} (path : IsPath ts)
    (marked : mark = [] ∨ mark = Token.operator "?") (ends : endsPath rest = true) :
    (boundOf g forms).Reads (mark ++ ts) rest := by
  obtain ⟨_, written⟩ := id path
  have ahead := written.ahead rest
  have bound : Reads (do
      let b ← traitBound g forms
      if b.2 then verbatimSince (mark ++ ts ++ rest) else return b.1) (mark ++ ts) rest :=
    (reads_traitBound path marked ends).last fun _ plain => .neg plain (.pure trivial)
  obtain rfl | rfl := marked
  · exact .ahead (.neg ahead.noLifetime (.neg (ahead.noWord (by decide))
      (.neg (ahead.noGroup _) bound)))
  · exact .ahead bound

theorem PathAhead.goesOn (ahead : PathAhead ts) : endsBounds ts = false := by
  cases ahead with
  | @word i segment more =>
      have keyword : startsWord "where" (i.token :: more) = false := segment.ne (by decide)
      simp only [endsBounds, endsPredicate, startsOperator_token, keyword]
      rfl
  | colons p q spacing more =>
      have colons := startsColons p q spacing more
      simp only [endsBounds, endsPredicate, colons]
      rfl

theorem IsPath.bound (path : IsPath ts) : IsBound 1 ts where
  starts us :=
    have ⟨_, written⟩ := path
    (written.ahead us).goesOn
  read g deep forms rest ends := by
    obtain ⟨g, rfl, -⟩ := deep.inner
    exact reads_boundOf path (.inl rfl) ends

/-- A bound that need not hold. -/
theorem IsPath.maybeBound (path : IsPath ts) : IsBound 1 (Token.operator "?" ++ ts) where
  starts _ := rfl
  read g deep forms rest ends := by
    obtain ⟨g, rfl, -⟩ := deep.inner
    exact reads_boundOf path (.inr rfl) ends

/-! ## Lists of bounds -/

/-- Bounds with plus signs between them. -/
abbrev plusTokens (xs : List (List Token)) : List Token := joinWith (Token.operator "+") xs

theorem plusTokens_cons (x y : List Token) (ys : List (List Token)) :
    plusTokens (x :: y :: ys) = x ++ (Token.operator "+" ++ plusTokens (y :: ys)) :=
  List.append_assoc ..

theorem exists_plusTokens_cons (x : List Token) (xs : List (List Token)) :
    ∃ us, plusTokens (x :: xs) = x ++ us := by
  cases xs with
  | nil => exact ⟨[], (List.append_nil x).symm⟩
  | cons y ys => exact ⟨_, plusTokens_cons x y ys⟩

theorem length_le_plusTokens (x : List Token) (xs : List (List Token)) :
    xs.length ≤ (plusTokens (x :: xs)).length := by
  induction xs generalizing x with
  | nil => exact Nat.zero_le _
  | cons y ys ih =>
      have shorter := ih y
      have plus : (Token.operator "+").length = 1 := rfl
      rw [plusTokens_cons, List.length_append, List.length_append, List.length_cons]
      omega

theorem reads_boundsWithin {go : List Token → Bool} {forms : BoundForms} (deep : g.Deep n)
    (ends : endsPath rest = true) (plus : startsOperator "+" rest = false) {x : List Token}
    {xs : List (List Token)} {fuel : Nat} (first : IsBound n x)
    (each : ∀ y ∈ xs, IsBound n y ∧ ∀ us, go (y ++ us) = true) (enough : xs.length < fuel) :
    (chainedWithin go (g.bound forms) "+" fuel).Reads (plusTokens (x :: xs)) rest := by
  induction xs generalizing x fuel with
  | nil =>
      obtain ⟨fuel, rfl⟩ := Nat.exists_eq_succ_of_ne_zero (Nat.ne_zero_of_lt enough)
      refine (first.read g deep forms rest ends).last fun _ _ => .skip (skips_operator? plus) ?_
      rintro _ rfl
      exact .pos rfl (.pure trivial)
  | cons y ys ih =>
      obtain ⟨fuel, rfl⟩ := Nat.exists_eq_succ_of_ne_zero (Nat.ne_zero_of_lt enough)
      obtain ⟨⟨next, goes⟩, others⟩ := List.forall_mem_cons.mp each
      obtain ⟨us, more⟩ := exists_plusTokens_cons y ys
      rw [plusTokens_cons]
      refine .bind (first.read g deep forms _ rfl) fun _ _ => ?_
      refine .bind (reads_operator? rfl rfl rfl) fun _ filled => .neg filled (.ahead (.pos ?_ ?_))
      · rw [more, List.append_assoc]
        exact goes _
      · exact (ih next others (Nat.lt_of_succ_lt_succ enough)).done

theorem reads_boundsUntil {stop : List Token → Bool} {x : List Token} {xs : List (List Token)}
    (stops : ∀ ts, endsBounds ts = false → stop ts = false) (each : ∀ y ∈ x :: xs, IsBound n y)
    (deep : g.Deep n) (ends : endsPath rest = true) (plus : startsOperator "+" rest = false) :
    (boundsUntil g stop).Reads (plusTokens (x :: xs)) rest := by
  obtain ⟨first, others⟩ := List.forall_mem_cons.mp each
  obtain ⟨us, more⟩ := exists_plusTokens_cons x xs
  refine .ahead (.neg ?_ (.steps (reads_boundsWithin deep ends plus first ?_ ?_)))
  · rw [more, List.append_assoc]
    exact stops _ (first.starts _)
  · intro y member
    exact ⟨others y member, fun us => by rw [stops _ ((others y member).starts us)]; rfl⟩
  · have shorter := length_le_plusTokens x xs
    rw [List.length_append]
    omega

/-! ## Generic parameters -/

theorem skips_outerAttributes (other : startsOperator "#" rest = false) :
    (outerAttributes g).ReadsAs [] rest (· = []) :=
  .steps (.ahead (.neg other (.pure rfl)))

/-- Every grammar that nests this deep reads the tokens as a generic parameter. -/
def IsParam (n : Nat) (ts : List Token) : Prop :=
  ∀ us, startsOperator ">" (ts ++ us) = false ∧
    ∀ g : Grammar, g.Deep n → endsArgument us = true → (declaredParam g).Reads ts us

theorem startsName_token (ordinary : i.text ∉ keywords) (us : List Token) :
    startsName (i.token :: us) = true := by
  simp [startsName, Ident.token, ordinary]

/-- Bounds behind a colon, if there are any. -/
def colonTokens : List (List Token) → List Token
  | [] => []
  | xs => Token.operator ":" ++ plusTokens xs

/-- A type parameter with its bounds. -/
theorem isParam_name (ordinary : i.text ∉ keywords) {bounds : List (List Token)}
    (each : ∀ x ∈ bounds, IsBound n x) : IsParam n ([i.token] ++ colonTokens bounds) := by
  intro us
  refine ⟨startsOperator_token _ _ _, fun g deep ends => ?_⟩
  obtain ⟨ends, equals, colon⟩ := endsArgument_iff.mp ends
  obtain ⟨ends, -, plus⟩ := endsType_iff.mp ends
  have noDefault : (default? (g.type true)).Reads [] us :=
    .skip (skips_operator? equals) (by
      rintro _ rfl
      exact .pos rfl (.pure trivial))
  have typed : (typeParam g []).Reads ([i.token] ++ colonTokens bounds) us := by
    refine .bind (reads_name ordinary) fun _ _ => ?_
    cases bounds with
    | nil =>
        refine .skip (skips_operator? colon) ?_
        rintro _ rfl
        exact .pos rfl (.given noDefault.done)
    | cons x xs =>
        refine .bind (reads_operator? rfl rfl rfl) fun _ filled => .neg filled ?_
        refine (reads_boundsUntil ?_ each deep ends plus).last fun _ _ => noDefault.done
        intro ts starts
        simp [endsBounds, endsPredicate] at starts
        simp [starts]
  refine .skip (skips_outerAttributes (startsOperator_token _ _ _)) ?_
  rintro _ rfl
  refine .ahead (.neg (startsWord_name ordinary (by decide) _) ?_)
  exact .ahead (.neg rfl (.pos (startsName_token ordinary _) typed.done))

section

variable {trailing : Bool} {xs : List (List Token)}

theorem reads_genericParams {fuel : Nat} (each : ∀ x ∈ xs, IsParam n x) (deep : g.Deep n)
    {spacing : Spacing} {p : Place} (enough : xs.length ≤ fuel) :
    (genericParams g fuel).Reads (commaTokens trailing xs) (.punct '>' spacing p :: rest) := by
  induction xs generalizing fuel with
  | nil =>
      cases fuel with
      | zero => exact .pure trivial
      | succ fuel => exact .ahead (.pos rfl (.pure trivial))
  | cons x xs ih =>
      obtain ⟨fuel, rfl⟩ := Nat.exists_eq_succ_of_ne_zero (Nat.ne_zero_of_lt enough)
      obtain ⟨first, others⟩ := List.forall_mem_cons.mp each
      obtain ⟨more, split, behind⟩ := commaTokens_cons trailing x xs
      rw [split]
      refine .ahead (.neg ?_ (.bind ((first _).2 g deep ?_) fun _ _ => .ahead ?_))
      · rw [List.append_assoc]
        exact (first _).1
      all_goals obtain ⟨rfl, -⟩ | rfl := behind
      · rfl
      · rfl
      · exact .pos rfl (.pure trivial)
      · refine .neg rfl (.bind reads_comma fun _ _ => ?_)
        exact (ih others (Nat.le_of_succ_le_succ enough)).done

/-- Generic parameters between angle brackets. -/
theorem reads_generics (each : ∀ x ∈ xs, IsParam n x) (deep : g.Deep n) :
    (generics g).Reads
      (Token.operator "<" ++ (commaTokens trailing xs ++ Token.operator ">")) rest := by
  refine .ahead (.pos rfl (.next (reads_operator rfl rfl) fun _ => .steps (.next ?_ fun _ => ?_)))
  · refine reads_genericParams each deep ?_
    have shorter := length_le_commaTokens trailing xs
    simp only [List.length_append]
    omega
  · exact (reads_operator rfl rfl).done

theorem skips_generics (other : startsOperator "<" rest = false) : (generics g).Reads [] rest :=
  .ahead (.neg other (.pure trivial))

end

end LogInterface.Parser
