/-
# Proofs.Parser.LocalGrammar -- paths and types in front of a comma

A path may hold types, and types hold paths and bounds; between angle brackets they stand side by
side with commas, and no group keeps these apart.  Still what stands behind a comma does not matter
to a path or a type that can be read without it (`local_path`, `local_typeOf`): the parsers of a
grammar are local if those it uses for what lies deeper are, so those of every grammar are
(`Grammar.ofDepth_local`).

Expressions, patterns and items do not occur here.  In a type they stand in groups only.
-/
import LogInterface.Parser.File
import LogInterface.Proofs.Parser.Locality

namespace LogInterface

set_option autoImplicit false

open LogInterface.Parser

/-- What the grammar reads of types and bounds does not depend on what stands behind a comma, and a
bound takes at least one token. -/
structure Grammar.Local (g : Grammar) : Prop where
  type : ∀ plus, Parser.Local (g.type plus)
  bound : ∀ forms, Parser.Local (g.bound forms)
  boundAtEnd : ∀ forms s, s.tokens = [] → ∃ e, g.bound forms s = .error e

namespace Parser

/-! ## Questions -/

/-- Something ends at a comma, and does not end where the tokens do. -/
def EndsAtComma (stop : List Token → Bool) : Prop :=
  ∀ tail, StartsComma tail → ∀ ts, stop (ts ++ tail) = stop ts ∨ ts = [] ∧ stop ts = false

theorem endsAtComma : EndsAtComma (startsOperator ",") := by
  intro tail comma ts
  cases ts with
  | nil => exact .inr ⟨rfl, rfl⟩
  | cons t ts =>
      left
      cases t <;> rfl

theorem EndsAtComma.or {b c : List Token → Bool} (first : EndsAtComma b) (second : Blind c)
    (none : c [] = false) : EndsAtComma fun ts => b ts || c ts := by
  intro tail comma ts
  obtain same | ⟨rfl, no⟩ := first tail comma ts
  · left
    simp only [same, second tail comma]
  · right
    exact ⟨rfl, by simp only [no, none, Bool.or_self]⟩

/-- A comma ends what could also go on to the end. -/
theorem blind_endsHere : Blind fun ts => ts.isEmpty || startsOperator "," ts := by
  rintro tail ⟨spacing, place, more⟩ (_ | ⟨t, ts⟩)
  · rfl
  · cases t <;> rfl

theorem blind_startsBang : Blind startsBang :=
  blind_and (blind_startsOperator (by decide)) (blind_not (blind_startsOperator (by decide)))

theorem blind_startsBuiltin : Blind startsBuiltin :=
  blind_behind (blind_startsWord _) rfl (blind_startsOperator (by decide))

theorem blind_startsPath : Blind startsPath :=
  blind_or (blind_or (blind_or blind_startsName (blind_startsOneOf _))
    (blind_startsOperator (by decide))) (blind_startsOperator (by decide))

theorem blind_startsRound : Blind startsRound :=
  blind_or (blind_startsGroup _) (blind_behindColons (blind_startsGroup _))

theorem blind_startsBound (forms : BoundForms) : Blind (startsBound forms) :=
  blind_or (blind_or (blind_or (blind_or (blind_or blind_startsAnyWord
    (blind_startsOperator (by decide))) (blind_startsOperator (by decide)))
    blind_startsLifetime) (blind_startsGroup _)) (blind_and (blind_const _) (blind_startsGroup _))

/-! ## Parts without types -/

theorem local_constArgument (g : Grammar) : Local (constArgument g) := by
  refine alike_ahead_ite blind_startsLiteral (alike_ahead_const local_literal) ?_
  refine alike_ahead_ite blind_startsName (alike_ahead_const ?_) ?_
  · exact alike_bind local_name fun _ => alike_pure _
  refine alike_ahead_ite (blind_startsGroup _) (alike_ahead_const ?_) ?_
  · exact alike_bind (local_grouped _ _) fun _ => alike_pure _
  exact alike_ahead_const alike_failExpecting

theorem local_default? {p : Parser Tree} (same : Local p) : Local (default? p) :=
  alike_bind (local_operator? (by decide)) fun _ => alike_ite (alike_pure _)
    (alike_bind same fun _ => alike_pure _)

theorem local_lifetimeBounds {stop : List Token → Bool} (blind : Blind stop) :
    Local (lifetimeBounds stop) :=
  alike_ahead_ite blind (alike_ahead_const (alike_pure []))
    (alike_ahead_const (local_chained ((blind_not blind).within _) local_lifetime (by decide)))

theorem local_lifetimeParam (attributes : List Attribute) : Local (lifetimeParam attributes) := by
  refine alike_bind local_lifetime fun l => alike_bind (local_operator? (by decide)) fun colon => ?_
  refine alike_ite (alike_bind (alike_pure _) fun _ => alike_pure _)
    (alike_bind (local_lifetimeBounds ?_) fun _ => alike_pure _)
  exact blind_or blind_endsHere (blind_startsOperator (by decide))

theorem local_capturedWithin : LocalLoop capturedWithin := by
  refine localLoop_of_step fun tail comma fuel fuel' s _ again => ?_
  refine agree_ahead_ite (blind_startsOperator (by decide) tail comma _) (agree_pure []) ?_
  have behind (p : Tree) (s' : Stream) (less : s'.tokens.length ≤ s.tokens.length) :
      Agree tail s' (do
        let ts ← ahead
        if startsOperator ">" ts then return [p]
        else if startsOperator "," ts then
          let comma ← operatorTrees ","
          return p :: comma ++ (← capturedWithin fuel)
        else failExpecting ["`,`", "`>`"]) (do
        let ts ← ahead
        if startsOperator ">" ts then return [p]
        else if startsOperator "," ts then
          let comma ← operatorTrees ","
          return p :: comma ++ (← capturedWithin fuel')
        else failExpecting ["`,`", "`>`"]) := by
    refine agree_ahead_ite (blind_startsOperator (by decide) tail comma _) (agree_pure [p]) ?_
    obtain same | ⟨-, no⟩ := endsAtComma tail comma s'.tokens
    · refine agree_ite same ?_ (agree_of_error rfl)
      refine agree_bind (local_operatorTrees _ tail comma s') fun _ s'' read _ => ?_
      have shorter := Nat.lt_of_lt_of_le (operatorTrees_shorter read) less
      exact agree_bind (again s'' shorter) fun _ _ _ _ => agree_pure _
    · rw [no]
      exact agree_of_error rfl
  refine agree_ite (blind_startsLifetime tail comma _) ?_ ?_
  · exact agree_bind (local_lifetime tail comma s) fun p s' _ less => behind p s' less
  refine agree_ite ?_ ?_ (agree_of_error rfl)
  · exact blind_or blind_startsName (blind_startsWord _) tail comma s.tokens
  · exact agree_bind (local_anyWord tail comma s) fun i s' _ less => behind _ s' less

theorem local_captureBound (forms : BoundForms) : Local (captureBound forms) := by
  refine alike_here fun p q => alike_bind (local_wordTree _) fun _ =>
    alike_bind (local_operatorTrees _) fun _ => alike_steps local_capturedWithin fun _ => ?_
  exact alike_bind (local_operatorTrees _) fun _ => alike_ite (alike_pure _) alike_failAt

theorem local_constMark (forms : BoundForms) : Local (constMark forms) := by
  refine alike_ahead_here fun p q => ?_
  refine alike_ahead_ite (blind_startsGroup _) (alike_ahead_const ?_) ?_
  · exact alike_bind (local_inside _ _) fun _ => alike_ite (alike_pure _) alike_failAt
  refine alike_ahead_ite (blind_startsWord _) (alike_ahead_const ?_)
    (alike_ahead_const (alike_pure _))
  exact alike_bind (local_word _) fun _ => alike_ite (alike_pure _) alike_failAt

theorem alike_needTrait (p q : Place) (text : String) (bs : List Tree) :
    Alike (needTrait p text bs) (needTrait q text bs) := alike_ite alike_failAt (alike_pure _)

theorem local_abi? : Local abi? := by
  refine alike_ahead_ite (blind_startsWord _) (alike_ahead_const ?_)
    (alike_ahead_const (alike_pure _))
  refine alike_bind (local_wordTree _) fun _ => ?_
  exact alike_ahead_ite blind_startsString (alike_ahead_const (alike_bind local_literal fun _ =>
    alike_pure _)) (alike_ahead_const (alike_pure _))

theorem local_squareType (g : Grammar) : Local (squareType g) :=
  alike_bind (local_inside _ _) fun _ => alike_pure _

section

variable {g : Grammar} (deeper : g.Local)

include deeper

/-! ## Arguments -/

theorem local_boundsUntil {stop : List Token → Bool} (ends : EndsAtComma stop) :
    Local (boundsUntil g stop) := by
  have within (forms : BoundForms) : Blind.Within (fun ts => !stop ts) (g.bound forms) := by
    intro tail comma s
    obtain same | ⟨none, no⟩ := ends tail comma s.tokens
    · exact .inl (congrArg not same)
    · exact .inr ⟨congrArg not no, deeper.boundAtEnd _ s none⟩
  have bounds (forms : BoundForms) : Local (chained (fun ts => !stop ts) (g.bound forms) "+") :=
    local_chained (within forms) (deeper.bound forms) (by decide)
  intro tail comma s
  obtain same | ⟨none, no⟩ := ends tail comma s.tokens
  · exact agree_ahead_ite same (agree_pure []) (bounds _ tail comma s)
  · obtain ⟨e, failed⟩ := deeper.boundAtEnd { capture := false, const := true } s none
    refine agree_of_error (e := e) ?_
    rw [boundsUntil, ahead_bind, no]
    show (steps >>= _) s = _
    rw [steps_bind]
    exact bind_of_error failed

theorem local_assignedArgument (name arguments : Tree) (equals : List Token) :
    Local (assignedArgument g name arguments equals) := by
  refine alike_ahead_ite (blind_or blind_startsLiteral (blind_startsGroup _)) ?_ ?_
  · exact alike_ahead_const (alike_bind (local_constArgument g) fun _ => alike_pure _)
  · exact alike_ahead_const (alike_bind (deeper.type _) fun _ => alike_pure _)

theorem local_genericArgument : Local (genericArgument g) := by
  refine alike_ahead_ite ?_ (alike_ahead_const local_lifetime) ?_
  · exact blind_behind blind_startsLifetime rfl (blind_not (blind_startsOperator (by decide)))
  refine alike_ahead_ite (blind_or blind_startsLiteral (blind_startsGroup _))
    (alike_ahead_const (local_constArgument g)) (alike_ahead_const ?_)
  refine alike_bind (deeper.type _) fun t => ?_
  split
  · exact alike_pure t
  · refine alike_bind (local_operator? (by decide)) fun equals => alike_ite ?_ ?_
    · exact local_assignedArgument deeper _ _ _
    · refine alike_bind (local_operator? (by decide)) fun colon => alike_ite (alike_pure t) ?_
      refine alike_bind (local_boundsUntil deeper ?_) fun _ => alike_pure _
      exact endsAtComma.or (blind_startsOperator (by decide)) rfl

theorem local_angleArguments (colons : List Token) : Local (angleArguments g colons) :=
  alike_bind (local_operatorTrees _) fun _ =>
    alike_bind (local_separated (blind_startsOperator (by decide)) (local_genericArgument deeper))
      fun _ => alike_bind (local_operatorTrees _) fun _ => alike_pure _

theorem local_output (plus : Bool) : Local (output g plus) :=
  alike_bind (local_operator? (by decide)) fun _ => alike_ite (alike_pure _)
    (alike_bind (deeper.type _) fun _ => alike_pure _)

theorem local_roundArguments : Local (roundArguments g) :=
  alike_bind (local_grouped _ _) fun _ => alike_bind (local_output deeper _) fun _ => alike_pure _

/-! ## Paths -/

/-- The arguments of a segment behind its name. -/
theorem local_segmentBehind (inExpression : Bool) (i : Ident) : Local (do
    let ts ← ahead
    if !inExpression && startsOperator "<" ts && !startsOperator "<=" ts
        && !startsOperator "<<=" ts then
      return .node .segment [.token i.token, ← angleArguments g []]
    else if startsOperator "::" ts && startsOperator "<" (skip (skip ts)) then
      let colons ← operator "::"
      return .node .segment [.token i.token, ← angleArguments g colons]
    else return plainSegment i) := by
  refine alike_ahead_ite ?_ (alike_ahead_const ?_) ?_
  · exact blind_and (blind_and (blind_and (blind_const _) (blind_startsOperator (by decide)))
      (blind_not (blind_startsOperator (by decide)))) (blind_not (blind_startsOperator (by decide)))
  · exact alike_bind (local_angleArguments deeper _) fun _ => alike_pure _
  refine alike_ahead_ite (blind_behindColons (blind_startsOperator (by decide)))
    (alike_ahead_const ?_) (alike_ahead_const (alike_pure _))
  exact alike_bind (local_operator _) fun _ =>
    alike_bind (local_angleArguments deeper _) fun _ => alike_pure _

theorem local_pathSegment (inExpression : Bool) : Local (pathSegment g inExpression) := by
  have behind (i : Ident) := local_segmentBehind deeper inExpression i
  refine alike_ahead_ite (blind_startsOneOf _) (alike_ahead_const ?_) (alike_ahead_const ?_)
  · exact alike_bind local_anyWord fun _ => alike_pure _
  refine alike_ahead_ite (blind_startsWord _) (alike_ahead_const ?_) (alike_ahead_const ?_)
  · exact alike_bind local_anyWord behind
  · exact alike_bind local_name behind

theorem local_moreSegments (inExpression : Bool) : LocalLoop (moreSegments g inExpression) := by
  refine localLoop_of_step fun tail comma fuel fuel' s _ again => ?_
  refine agree_ahead_ite ?_ ?_ (agree_pure [])
  · exact blind_behindColons (blind_not (blind_startsGroup _)) tail comma s.tokens
  refine agree_bind (local_operatorTrees _ tail comma s) fun colons s' read _ => ?_
  refine agree_bind (local_pathSegment deeper inExpression tail comma s') fun x s'' _ less => ?_
  have shorter := Nat.lt_of_le_of_lt less (operatorTrees_shorter read)
  exact agree_bind (again s'' shorter) fun more _ _ _ => agree_pure _

theorem local_pathChildren (inExpression : Bool) : Local (pathChildren g inExpression) :=
  alike_bind (local_operator? (by decide)) fun _ =>
    alike_bind (local_pathSegment deeper _) fun _ =>
      alike_steps (local_moreSegments deeper _) fun _ => alike_pure _

/-- A path that can be read does not depend on what stands behind a comma. -/
theorem local_path (inExpression : Bool) : Local (path g inExpression) :=
  alike_bind (local_pathChildren deeper _) fun _ => alike_pure _

theorem local_boundPath : Local (boundPath g) := by
  refine alike_bind (local_pathChildren deeper _) fun children => ?_
  refine alike_ahead_ite (blind_and (blind_const _) blind_startsRound) (alike_ahead_const ?_)
    (alike_ahead_const (alike_pure _))
  exact alike_bind (local_operator? (by decide)) fun _ =>
    alike_bind (local_roundArguments deeper) fun _ => alike_pure _

theorem local_restSegments (inExpression : Bool) : LocalLoop (restSegments g inExpression) := by
  refine localLoop_of_step fun tail comma fuel fuel' s _ again => ?_
  refine agree_bind (local_pathSegment deeper inExpression tail comma s) fun x s' _ less => ?_
  refine agree_bind (local_operator? (by decide) tail comma s') fun colons s'' read _ => ?_
  by_cases missing : colons.isEmpty = true
  · rw [if_pos missing, if_pos missing]
    exact agree_pure [x]
  · rw [if_neg missing, if_neg missing]
    have shorter := Nat.lt_of_lt_of_le (operator?_shorter read missing) less
    exact agree_bind (again s'' shorter) fun more _ _ _ => agree_pure _

theorem local_qualifiedPath (inExpression : Bool) : Local (qualifiedPath g inExpression) := by
  refine alike_ahead_ite (blind_startsOperator (by decide)) (alike_ahead_const ?_)
    (alike_ahead_const (local_path deeper _))
  refine alike_bind (local_operatorTrees _) fun opening => alike_bind (deeper.type _) fun t => ?_
  have behind (asTrait : Tree) : Local (do
      let closing ← operatorTrees ">"
      let colons ← operatorTrees "::"
      let rest ← restSegments g inExpression (← steps)
      let tail := if asTrait.isAbsent then Tree.node .path (colons ++ rest)
        else Tree.node .pathRest (colons ++ rest)
      return Tree.node .qualifiedPath (opening ++ [t, asTrait] ++ closing ++ [tail])) :=
    alike_bind (local_operatorTrees _) fun _ => alike_bind (local_operatorTrees _) fun _ =>
      alike_steps (local_restSegments deeper _) fun _ => alike_pure _
  refine alike_bind (local_word? _) fun found => ?_
  cases found with
  | none => exact behind .absent
  | some place => exact alike_bind (local_path deeper _) fun _ => behind _

/-! ## Generic parameters -/

theorem local_typeParam (attributes : List Attribute) : Local (typeParam g attributes) := by
  refine alike_bind local_name fun i => alike_bind (local_operator? (by decide)) fun colon => ?_
  have behind (bounds : List Tree) : Local (do
      return Tree.node .typeParam [attributesTree attributes, .token i.token,
        boundsTree colon bounds, ← default? (g.type true)]) :=
    alike_bind (local_default? (deeper.type true)) fun _ => alike_pure _
  refine alike_ite (alike_bind (alike_pure []) behind)
    (alike_bind (local_boundsUntil deeper ?_) behind)
  exact (endsAtComma.or (blind_startsOperator (by decide)) rfl).or
    (blind_startsOperator (by decide)) rfl

theorem local_constParam (attributes : List Attribute) : Local (constParam g attributes) :=
  alike_bind (local_wordTree _) fun _ => alike_bind local_name fun _ =>
    alike_bind (local_operatorTrees _) fun _ => alike_bind (deeper.type _) fun _ =>
      alike_bind (local_default? (local_constArgument g)) fun _ => alike_pure _

theorem local_genericParam (choices : List String) (attributes : List Attribute) :
    Local (genericParam g choices attributes) := by
  refine alike_ahead_ite blind_startsLifetime (alike_ahead_const ?_) ?_
  · exact alike_bind (local_lifetimeParam attributes) fun _ => alike_pure _
  refine alike_ahead_ite blind_startsName (alike_ahead_const ?_) ?_
  · exact alike_bind (local_typeParam deeper attributes) fun _ => alike_pure _
  refine alike_ahead_ite (blind_startsWord _) (alike_ahead_const ?_)
    (alike_ahead_const alike_failExpecting)
  exact alike_bind (local_constParam deeper attributes) fun _ => alike_pure _

theorem local_boundParam : Local (boundParam g) :=
  alike_bind (local_outerAttributes g) fun _ =>
    alike_bind (local_genericParam deeper _ _) fun _ => alike_pure _

theorem local_binder? : Local (binder? g) := by
  refine alike_ahead_ite (blind_startsWord _) (alike_ahead_const ?_)
    (alike_ahead_const (alike_pure _))
  exact alike_bind (local_wordTree _) fun _ => alike_bind (local_operatorTrees _) fun _ =>
    alike_bind (local_separated (blind_startsOperator (by decide)) (local_boundParam deeper))
      fun _ => alike_bind (local_operatorTrees _) fun _ => alike_pure _

/-! ## Bounds -/

theorem local_traitBound (forms : BoundForms) : Local (traitBound g forms) := by
  refine alike_bind (local_binder? deeper) fun early => alike_bind (local_constMark forms)
    fun isConst => alike_here fun p q => alike_bind (local_operator? (by decide)) fun mark => ?_
  have behind (binder : Tree) : Alike (do
      let path ← boundPath g
      if !binder.isAbsent && !mark.isEmpty then
        failAt p (.rule "`for<...>` binder not allowed with `?` trait polarity modifier")
      return (Tree.node .traitBound [binder, .node .list (Tree.ofTokens mark), path], isConst)) (do
      let path ← boundPath g
      if !binder.isAbsent && !mark.isEmpty then
        failAt q (.rule "`for<...>` binder not allowed with `?` trait polarity modifier")
      return (Tree.node .traitBound [binder, .node .list (Tree.ofTokens mark), path], isConst)) :=
    alike_bind (local_boundPath deeper) fun _ =>
      alike_ite (alike_bind alike_failAt fun _ => alike_pure _) (alike_pure _)
  exact alike_ite (alike_bind (local_binder? deeper) behind) (alike_bind (alike_pure _) behind)

theorem local_boundOf (forms : BoundForms) : Local (boundOf g forms) := by
  refine alike_ahead_ite blind_startsLifetime (alike_ahead_const local_lifetime) ?_
  refine alike_ahead_ite (blind_startsWord _) (alike_ahead_const (local_captureBound forms)) ?_
  refine alike_ahead_ite (blind_startsGroup _) (alike_ahead_since ?_) (alike_ahead_since ?_)
  · exact since_bind (local_inside _ _) fun _ => since_ite since_verbatimSince
      (since_const (alike_pure _))
  · refine since_bind (local_traitBound deeper forms) fun _ => since_ite since_verbatimSince
      (since_const (alike_pure _))

/-! ## Bounds as types -/

theorem local_bounds (plus : Bool) (forms : BoundForms) : Local (bounds g plus forms) :=
  alike_ite (local_chained ((blind_startsBound _).within _) (deeper.bound _) (by decide))
    (alike_bind (deeper.bound _) fun _ => alike_pure _)

theorem local_furtherBounds {go : List Token → Bool} (blind : Blind go) (first : Tree) :
    Local (furtherBounds g go first) := by
  refine alike_bind (local_operator? (by decide)) fun plus => alike_ite (alike_pure _) ?_
  refine alike_ahead_ite blind (alike_ahead_const ?_) (alike_ahead_const (alike_pure _))
  exact alike_bind (local_chained (blind.within _) (deeper.bound _) (by decide)) fun _ =>
    alike_pure _

theorem local_dynType (plus : Bool) : Local (dynType g plus) := by
  refine alike_ahead_here fun p q => alike_ahead_since ?_
  exact since_bind (local_wordTree _) fun _ => since_bind (local_operator? (by decide)) fun _ =>
    since_bind (local_bounds deeper _ _) fun _ => since_bind (alike_needTrait p q _ _) fun _ =>
      since_ite (since_const (alike_pure _)) since_verbatimSince

theorem local_lifetimeType : Local (lifetimeType g) :=
  alike_here fun p q => alike_bind (local_bounds deeper _ _) fun _ =>
    alike_bind (alike_needTrait p q _ _) fun _ => alike_pure _

theorem local_implType (plus : Bool) : Local (implType g plus) :=
  alike_here fun p q => alike_bind (local_wordTree _) fun _ =>
    alike_bind (local_bounds deeper _ _) fun _ =>
      alike_bind (alike_needTrait p q _ _) fun _ => alike_pure _

theorem local_typeOfPath (plus : Bool) (binder : Tree) : Local (typeOfPath g plus binder) := by
  refine alike_bind (local_qualifiedPath deeper _) fun p => ?_
  have behind (bounds : List Tree) : Local (do
      return Tree.node .objectType [.absent, .node .list bounds] : Parser Tree) := alike_pure _
  refine alike_ahead_ite (blind_const _) (alike_ahead_const (alike_pure _)) ?_
  refine alike_ahead_ite (blind_and blind_startsBang (blind_const _)) (alike_ahead_const ?_) ?_
  · exact local_invocationOf p
  refine alike_ahead_ite (blind_or (blind_const _) (blind_and (blind_const _)
    (blind_startsOperator (by decide)))) (alike_ahead_const ?_) (alike_ahead_const (alike_pure _))
  exact alike_ite (alike_bind (local_furtherBounds deeper (blind_startsBound _) _) behind)
    (alike_bind (alike_pure _) behind)

/-! ## All types -/

theorem local_roundObject (bound : Tree) : Local (roundObject g bound) :=
  alike_bind (local_furtherBounds deeper (blind_const _) _) fun _ => alike_pure _

theorem local_parenthesisedType (plus : Bool) : Local (parenthesisedType g plus) := by
  refine alike_bind (local_insideOpen _ _) fun i => ?_
  have behind (t : Tree) : Local (do
      i.finish
      return t) := alike_bind (local_finish i) fun _ => alike_pure t
  dsimp only
  split
  · exact alike_bind (alike_pure _) behind
  · exact alike_bind (alike_pure _) behind
  · exact alike_bind (local_roundObject deeper _) behind
  · refine alike_ahead fun tail comma s => ?_
    have same : startsOperator "+" (s.tokens ++ tail) = startsOperator "+" s.tokens :=
      blind_startsOperator (by decide) tail comma _
    rw [same]
    split
    · exact alike_bind (local_roundObject deeper _) behind tail comma s
    · exact alike_bind (alike_pure _) behind tail comma s

theorem local_functionType (binder : Tree) : Local (functionType g binder) :=
  alike_bind (local_optionalWord _) fun _ => alike_bind local_abi? fun _ =>
    alike_bind (local_wordTree _) fun _ => alike_bind (local_insideOpen _ _) fun _ =>
      alike_bind (local_output deeper _) fun _ => alike_bind (local_finish _) fun _ => alike_pure _

theorem since_typeBehindBinder (plus : Bool) (binder : Tree) :
    Since (fun before => typeBehindBinder g plus before binder)
      fun before => typeBehindBinder g plus before binder := by
  refine since_ahead_ite (blind_startsOneOf _)
    (since_ahead_const (since_const (local_functionType deeper _))) ?_
  refine since_ahead_ite blind_startsBuiltin (since_ahead_const since_builtinCall) ?_
  refine since_ahead_ite (blind_or blind_startsName (blind_startsOneOf _)) ?_ ?_
  · exact since_ahead_const (since_const (local_typeOfPath deeper _ _))
  · exact since_ahead_const (since_const alike_failExpecting)

theorem local_pointerType : Local (pointerType g) := by
  refine alike_bind (local_operatorTrees _) fun star => ?_
  refine alike_ahead_ite (blind_startsWord _) (alike_ahead_const ?_) ?_
  · exact alike_bind (local_wordTree _) fun _ => alike_bind (deeper.type _) fun _ => alike_pure _
  refine alike_ahead_ite (blind_startsWord _) (alike_ahead_const ?_)
    (alike_ahead_const alike_failExpecting)
  exact alike_bind (local_wordTree _) fun _ => alike_bind (deeper.type _) fun _ => alike_pure _

theorem local_referenceType : Local (referenceType g) :=
  alike_bind (local_operatorTrees _) fun _ => alike_bind local_lifetime? fun _ =>
    alike_bind (local_optionalWord _) fun _ => alike_bind (deeper.type _) fun _ => alike_pure _

/-- A type that can be read does not depend on what stands behind a comma. -/
theorem local_typeOf (plus : Bool) : Local (typeOf g plus) := by
  refine alike_ahead_ite (blind_startsWord _) (alike_ahead_since ?_) ?_
  · exact since_bind (local_binder? deeper) fun _ => since_typeBehindBinder deeper _ _
  refine alike_ahead_ite (blind_startsGroup _) (alike_ahead_const ?_) ?_
  · exact local_parenthesisedType deeper plus
  refine alike_ahead_ite (blind_startsOneOf _) (alike_ahead_const ?_) ?_
  · exact local_functionType deeper _
  refine alike_ahead_ite blind_startsBuiltin (alike_ahead_since since_builtinCall) ?_
  refine alike_ahead_ite blind_startsPath (alike_ahead_const ?_) ?_
  · exact local_typeOfPath deeper _ _
  refine alike_ahead_ite (blind_startsWord _) (alike_ahead_const ?_) ?_
  · exact local_dynType deeper plus
  refine alike_ahead_ite (blind_startsGroup _) (alike_ahead_const ?_) ?_
  · exact local_squareType g
  refine alike_ahead_ite (blind_startsOperator (by decide)) (alike_ahead_const ?_) ?_
  · exact local_pointerType deeper
  refine alike_ahead_ite (blind_startsOperator (by decide)) (alike_ahead_const ?_) ?_
  · exact local_referenceType deeper
  refine alike_ahead_ite (blind_and (blind_startsOperator (by decide))
    (blind_not (blind_startsOperator (by decide)))) (alike_ahead_const ?_) ?_
  · exact alike_bind (local_operatorTrees _) fun _ => alike_pure _
  refine alike_ahead_ite (blind_startsWord _) (alike_ahead_const ?_) ?_
  · exact local_implType deeper plus
  refine alike_ahead_ite (blind_startsWord _) (alike_ahead_const ?_) ?_
  · exact alike_bind (local_wordTree _) fun _ => alike_pure _
  refine alike_ahead_ite blind_startsLifetime (alike_ahead_const ?_) ?_
  · exact local_lifetimeType deeper
  exact alike_ahead_const alike_failExpecting

end

end Parser

/-! ## Grammars -/

theorem Grammar.nothing_local (laidOut : Bool) : (Grammar.nothing laidOut).Local where
  type _ := alike_failExpecting
  bound _ := alike_failExpecting
  boundAtEnd _ _ _ := ⟨_, rfl⟩

theorem Grammar.deeper_local {g : Grammar} (within : g.Local) : g.deeper.Local where
  type := local_typeOf within
  bound := local_boundOf within
  boundAtEnd forms s none := by
    obtain ⟨ts, ending, leftover⟩ := s
    cases none
    exact ⟨_, rfl⟩

/-- However deep it nests, a grammar is local. -/
theorem Grammar.ofDepth_local (laidOut : Bool) (depth : Nat) :
    (Grammar.ofDepth laidOut depth).Local := by
  induction depth with
  | zero => exact Grammar.nothing_local laidOut
  | succ depth ih => exact Grammar.deeper_local ih

theorem Grammar.ofTokens_local (laidOut : Bool) (tokens : List Token) :
    (Grammar.ofTokens laidOut tokens).Local := Grammar.ofDepth_local laidOut _

end LogInterface
