import Criteria.Proofs.Grammar.Sound
import Criteria.Proofs.Rule.Viable

/-!
# Faults in conditions

Wherever a fault is found, the tokens in front of it are the beginning of a
condition.  Every production that misses a token is completed by samples of
what it misses, and by those that close the groups around it.  Looking ahead
never leads into a form that the tokens in front of the fault exclude.
-/

namespace Criteria

open Grammar

/-- A predicate, whose subject may be the word `NOT`. -/
def MeansPredicate (used : List Token) (expression : Expr) : Prop :=
  IsSimple used expression ∨ IsNotSubject used expression

/-- What a negation applies to. -/
def MeansPrimary (used : List Token) (expression : Expr) : Prop :=
  IsPrimary used expression ∨ IsNotSubject used expression

theorem isOperand_sample :
    IsOperand (Kind.sample .integer)
      (.literal ⟨.numeric, (Kind.sample .integer).text⟩) :=
  .literal (.numeric (.inl rfl))

theorem viable_between_tail : Viable (IsTail .betweenWord) [] :=
  ⟨[.betweenWord, .integer, .andWord, .integer], rfl, _,
    .between rfl isOperand_sample rfl isOperand_sample⟩

theorem viable_like_tail : Viable (IsTail .likeWord) [] :=
  ⟨[.likeWord, .identifier], rfl, _, .like rfl (.field rfl)⟩

theorem isValues_sample :
    IsValues [Kind.sample .integer]
      [⟨.numeric, (Kind.sample .integer).text⟩] :=
  .one (.numeric (.inl rfl))

theorem viable_member_tail : Viable (IsTail .inWord) [] :=
  ⟨[.inWord, .openParen, .integer, .closeParen], rfl, _,
    .member rfl rfl isValues_sample rfl⟩

theorem viable_simple : Viable IsSimple [] :=
  ⟨[.identifier, .equals, .integer], rfl, _,
    @IsSimple.comparison (Kind.sample .identifier) (Kind.sample .integer)
      [Kind.sample .equals] _ _ _ (.field rfl) .eq isOperand_sample⟩

namespace Rule

theorem atomic_field : field.Atomic :=
  atomic_expect.bind_pure

theorem atomic_literal : literal.Atomic := by
  intro tokens fault failed
  cases tokens with
  | nil => rfl
  | cons first others =>
      cases found : first.literal? with
      | none => simp [literal, found]
      | some value => simp [literal, found] at failed

theorem atomic_operand : operand.Atomic := by
  apply atomic_upcoming_then
  intro kind
  split
  · exact atomic_field.bind_pure
  · exact atomic_literal.bind_pure

theorem atomic_pattern : pattern.Atomic := by
  apply atomic_upcoming_then
  intro kind
  split
  · exact atomic_field.bind_pure
  · exact atomic_expect.bind_pure
  · exact atomic_fail

theorem sound_operand : operand.Sound fun used expression =>
    ∃ token, used = [token] ∧ IsOperand token expression := by
  intro tokens expression rest reads
  obtain ⟨token, rfl, isOperand⟩ := reads_operand.mp reads
  exact ⟨[token], rfl, token, rfl, isOperand⟩

theorem fails_operand_then {γ : Type} {meaning : List Token → γ → Prop}
    {next : Expr → Rule Expr} (viable : Viable meaning [])
    (isNext : ∀ token expression, IsOperand token expression →
      (next expression).FailsViably fun later => meaning (token :: later)) :
    (operand >>= next).FailsViably meaning := by
  apply (atomic_operand.failsViably viable).bind sound_operand
  intro used expression means
  obtain ⟨token, rfl, isOperand⟩ := means
  exact isNext token expression isOperand

theorem fails_relOp :
    relOp.FailsViably fun operator op => IsRelOp (operator.map Token.kind) op := by
  have viable : Viable (fun operator op => IsRelOp (operator.map Token.kind) op)
      [] :=
    ⟨[.equals], rfl, .eq, .eq⟩
  apply fails_upcoming_then
  intro kind
  split
  · exact fails_expect_then (by decide) viable fun _ _ => fails_pure
  · apply fails_expect_then (by decide) viable
    intro token isLower
    apply fails_optional.bind (sound_optional (by decide))
    intro used found _
    split
    · exact fails_pure
    · apply fails_optional.bind (sound_optional (by decide))
      intro used found _
      split
      · exact fails_pure
      · exact fails_pure
  · apply fails_expect_then (by decide) viable
    intro token isGreater
    apply fails_optional.bind (sound_optional (by decide))
    intro used found _
    split
    · exact fails_pure
    · exact fails_pure
  · apply fails_expect_then (by decide) viable
    intro token isNegate
    apply fails_expect_then (by decide)
    · refine ⟨[.equals], rfl, .ne, ?_⟩
      change IsRelOp [token.kind, .equals] .ne
      rw [isNegate]
      exact .unequal
    · intro _ _
      exact fails_pure
  · exact atomic_fail.failsViably viable

theorem fails_comparison : comparison.FailsViably IsSimple := by
  apply fails_operand_then viable_simple
  intro leftToken left isLeft
  have rightMissing (operator : List Token) (op : RelOp)
      (isRelOp : IsRelOp (operator.map Token.kind) op) :
      IsSimple (leftToken :: (operator ++ [Kind.sample .integer]))
        (.comparison left op
          (.literal ⟨.numeric, (Kind.sample .integer).text⟩)) :=
    .comparison isLeft isRelOp isOperand_sample
  apply FailsViably.bind _ (fun _ _ _ => isRelOp_of_reads_relOp)
  · intro operator op isRelOp
    apply fails_operand_then
    · exact ⟨[.integer], rfl, _, rightMissing operator op isRelOp⟩
    · intro _ _ _
      exact fails_pure
  · apply fails_relOp.closedBy [.integer] rfl
    intro operator op isRelOp
    exact ⟨_, rightMissing operator op isRelOp⟩

theorem fails_between_tail (subject : Field) (negated : Bool) :
    (do
      let _ ← expect .betweenWord
      let low ← operand
      let _ ← expect .andWord
      let high ← operand
      return Expr.between subject negated low high : Rule Expr).FailsViably
      (IsTail .betweenWord) := by
  apply fails_expect_then (by decide) viable_between_tail
  intro keyword kind
  apply fails_operand_then
  · exact ⟨[.integer, .andWord, .integer], rfl, _,
      .between kind isOperand_sample rfl isOperand_sample⟩
  intro lowToken low isLow
  apply fails_expect_then (by decide)
  · exact ⟨[.andWord, .integer], rfl, _,
      .between kind isLow rfl isOperand_sample⟩
  intro andToken isAnd
  apply fails_operand_then
  · exact ⟨[.integer], rfl, _, .between kind isLow isAnd isOperand_sample⟩
  intro highToken high isHigh
  exact fails_pure

theorem fails_like_tail (subject : Field) (negated : Bool) :
    (do
      let _ ← expect .likeWord
      let matched ← pattern
      return Expr.like subject negated matched : Rule Expr).FailsViably
      (IsTail .likeWord) := by
  apply fails_expect_then (by decide) viable_like_tail
  intro keyword kind
  apply FailsViably.bind_pure
  exact atomic_pattern.failsViably
    ⟨[.identifier], rfl, _, .like kind (.field rfl)⟩

theorem fails_values : (sepBy .comma literal).FailsViably IsValues := by
  apply fails_sepBy (by decide) sound_literal
  · exact atomic_literal.failsViably
      ⟨[.integer], rfl, _, Kind.sample .integer, rfl, .numeric (.inl rfl)⟩
  · intro used value isSingle
    obtain ⟨token, rfl, isLiteral⟩ := isSingle
    exact .one isLiteral
  · intro used comma others value values isSingle isComma areValues
    obtain ⟨token, rfl, isLiteral⟩ := isSingle
    exact .more isLiteral isComma areValues

theorem fails_member_tail (subject : Field) (negated : Bool) :
    (do
      let _ ← expect .inWord
      let _ ← expect .openParen
      let values ← sepBy .comma literal
      let _ ← expect .closeParen
      return Expr.member subject negated values : Rule Expr).FailsViably
      (IsTail .inWord) := by
  apply fails_expect_then (by decide) viable_member_tail
  intro keyword kind
  apply fails_expect_then (by decide)
  · exact ⟨[.openParen, .integer, .closeParen], rfl, _,
      .member kind rfl isValues_sample rfl⟩
  intro opening isOpening
  apply fails_closed (by decide) rfl sound_values fails_values
  intro used values areValues
  have isTail : IsTail .inWord
      (keyword :: opening :: (used ++ [Kind.sample .closeParen]))
      fun subject negated => .member subject negated values :=
    .member kind isOpening areValues rfl
  exact ⟨_, isTail⟩

variable {dispatch : Dispatch} {tokens : List Token}

theorem viable_predicate : Viable MeansPredicate [] :=
  viable_simple.mono fun _ value isSimple => ⟨value, .inl isSimple⟩

theorem fails_field_then {next : Field → Rule Expr}
    (isNext : ∀ subject others, tokens = subject :: others →
      (next ⟨subject.text⟩ others).FailsViably
        (fun later => MeansPredicate (subject :: later)) others) :
    ((field >>= next) tokens).FailsViably MeansPredicate tokens := by
  apply fails_bind_run (atomic_field.failsViably viable_predicate tokens)
  intro subject others reads
  obtain ⟨subject, rfl, _, rfl⟩ := reads_field.mp reads
  exact ⟨[subject], rfl, isNext subject others rfl⟩

theorem fails_optionalNot_then {γ : Type} {meaning : List Token → γ → Prop}
    {next : Bool → Rule Expr}
    (isNext : ∀ nots negated rest, tokens = nots ++ rest →
      IsOptionalNot nots negated →
      (next negated rest).FailsViably (fun later => meaning (nots ++ later))
        rest) :
    ((optional .notWord >>= next) tokens).FailsViably meaning tokens := by
  apply fails_bind_run (fails_optional tokens)
  intro negated rest reads
  obtain ⟨nots, rfl, optionalNot, _⟩ := reads_optionalNot.mp reads
  exact ⟨nots, rfl, isNext nots negated rest rfl optionalNot⟩

/-- A subject, perhaps the word `NOT`, and a tail.  The choice of the form
leaves no subject that cannot stand in front of the keyword. -/
theorem fails_tailed {keyword : Kind} {skip : List Token → List Token}
    {next : Field → Bool → Rule Expr} (someTail : Viable (IsTail keyword) [])
    (failsTail : ∀ subject negated,
      (next subject negated).FailsViably (IsTail keyword))
    (chosen : formOf skip tokens = tailForm keyword) :
    ((do
      let subject ← field
      let negated ← optional .notWord
      next subject negated : Rule Expr) tokens).FailsViably MeansPredicate
        tokens := by
  obtain ⟨_, _, _, isTail⟩ := someTail
  apply fails_field_then
  rintro subject others rfl
  apply fails_optionalNot_then
  rintro nots negated rest rfl optionalNot
  -- Where the tail ends in a fault, it is the subject that decides whether the
  -- completed tail makes a predicate.
  apply (failsTail _ negated rest).mono
  intro tail denote isTail
  rcases subject_of_tailForm isTail optionalNot chosen with
    subjectKind | ⟨isNot, rfl, rfl⟩
  · have isSimple : IsSimple (subject :: (nots ++ tail))
        (denote ⟨subject.text⟩ negated) :=
      .tailed subjectKind optionalNot isTail
    exact ⟨_, .inl isSimple⟩
  · exact ⟨_, .inr (.intro isNot isTail)⟩

/-- After a subject that is no identifier the word `IS` is missing, and a tail
may come in its place. -/
theorem fails_isNull {skip : List Token → List Token}
    (chosen : formOf skip tokens = .isNull) :
    (isNull tokens).FailsViably MeansPredicate tokens := by
  apply fails_field_then
  rintro subject others rfl
  have subjectViable : Viable (fun later => MeansPredicate (subject :: later)) [] := by
    rcases subject_of_isNull chosen with isIdentifier | isNot
    · exact ⟨[.isWord, .nullWord], rfl, _,
        .inl (.isNull isIdentifier rfl .absent rfl)⟩
    · apply viable_like_tail.mono
      intro tail denote isTail
      exact ⟨_, .inr (.intro isNot isTail)⟩
  apply fails_bind_run (atomic_expect.failsViably subjectViable others)
  intro isToken behind readsIs
  obtain ⟨rfl, isKind⟩ := (reads_expect_of_ne (by decide)).mp readsIs
  refine ⟨[isToken], rfl, ?_⟩
  have isIdentifier := subjectKind_of_isNull isKind chosen
  apply fails_optionalNot_then
  rintro nots negated rest rfl optionalNot
  apply fails_expect_then (by decide)
  · exact ⟨[.nullWord], rfl, _,
      .inl (.isNull isIdentifier isKind optionalNot rfl)⟩
  · intro _ _
    exact fails_pure

theorem fails_predicate (regular : dispatch.Regular) :
    (predicate dispatch).FailsViably MeansPredicate := by
  intro tokens
  obtain ⟨skip, isForm, -⟩ := regular.form
  unfold predicate
  rw [bind_of_pass (ask_eq dispatch.form tokens)]
  generalize chosen : dispatch.form tokens = form
  rw [isForm] at chosen
  cases form with
  | between => exact fails_tailed viable_between_tail fails_between_tail chosen
  | like => exact fails_tailed viable_like_tail fails_like_tail chosen
  | member => exact fails_tailed viable_member_tail fails_member_tail chosen
  | isNull => exact fails_isNull chosen
  | comparison =>
      apply (fails_comparison tokens).mono
      intro used expression isSimple
      exact ⟨expression, .inl isSimple⟩

theorem viable_condition : Viable IsCondition [] := by
  apply viable_simple.mono
  intro used expression isSimple
  exact ⟨_, .intro (.one (.intro (.one (.primary (.simple isSimple)))))⟩

theorem viable_primary : Viable MeansPrimary [] :=
  viable_simple.mono fun _ value isSimple => ⟨value, .inl (.simple isSimple)⟩

theorem fails_primary (regular : dispatch.Regular) {inner : Rule Expr}
    (sound : inner.Sound IsCondition) (isInner : inner.FailsViably IsCondition) :
    (primary dispatch inner).FailsViably MeansPrimary := by
  intro tokens
  by_cases group : Token.headKind tokens = .openParen ∧ dispatch.opensGroup tokens
  · obtain ⟨isOpening, opens⟩ := group
    cases tokens with
    | nil => cases isOpening
    | cons opening others =>
        rw [primary_of_group isOpening opens]
        have behind : (do
            let body ← inner
            let _ ← expect .closeParen
            return .group body : Rule Expr).FailsViably
              fun later => MeansPrimary (opening :: later) := by
          apply fails_closed (by decide) rfl sound isInner
          intro used body isCondition
          exact ⟨_, .inl (.group isOpening isCondition rfl)⟩
        intro fault failed
        obtain ⟨used, split, viable⟩ := behind others fault failed
        exact ⟨opening :: used, congrArg _ split, viable⟩
  · rw [primary_of_predicate]
    · apply (fails_predicate regular tokens).mono
      intro used expression means
      exact ⟨expression, means.imp_left .simple⟩
    · intro isOpening
      simpa [isOpening] using group

theorem fails_factor {negated plain : Rule Expr}
    (isNegated : negated.FailsViably MeansPrimary)
    (isPlain : plain.FailsViably MeansPrimary) :
    (factor negated plain).FailsViably IsFactor := by
  intro tokens fault failed
  by_cases isNot : Token.headKind tokens = .notWord
  · cases tokens with
    | nil => cases isNot
    | cons notToken others =>
        have isNot : notToken.kind = .notWord := isNot
        rw [factor_of_not isNot] at failed ⊢
        obtain ⟨used, split, viable⟩ := isNegated others fault failed
        refine ⟨notToken :: used, congrArg _ split, ?_⟩
        apply viable.within [notToken] [] rfl
        intro tokens expression means
        rw [List.map_nil, List.append_nil]
        rcases means with isPrimary | isNotSubject
        · exact ⟨_, .negation isNot isPrimary⟩
        · exact ⟨_, .negatedSubject isNot isNotSubject⟩
  · rw [factor_of_other isNot] at failed ⊢
    obtain ⟨used, split, missing, samples, value, means⟩ :=
      isPlain tokens fault failed
    -- The completion of nothing may begin with `NOT`; a simple one is as good.
    cases used with
    | nil =>
        refine ⟨[], split, viable_simple.mono ?_⟩
        intro used expression isSimple
        exact ⟨expression, .primary (.simple isSimple)⟩
    | cons first others =>
        refine ⟨first :: others, split, missing, samples, value, ?_⟩
        rcases means with isPrimary | isNotSubject
        · exact .primary isPrimary
        · cases isNotSubject with
          | intro subjectKind =>
              rw [split] at isNot
              exact (isNot subjectKind).elim

theorem fails_conjunction {item : Rule Expr} (sound : item.Sound IsFactor)
    (isItem : item.FailsViably IsFactor) :
    (conjunction item).FailsViably IsTerm := by
  have areFactors : (sepBy .andWord item).FailsViably AreFactors := by
    apply fails_sepBy (by decide) sound isItem
    · intro used factor isFactor
      exact .one isFactor
    · intro used separator others factor factors isFactor isSeparator areOthers
      exact .more isFactor isSeparator areOthers
  apply FailsViably.bind_pure
  apply areFactors.mono
  intro used factors areFactors
  exact ⟨_, .intro areFactors⟩

theorem fails_disjunction {item : Rule Expr} (sound : item.Sound IsTerm)
    (isItem : item.FailsViably IsTerm) :
    (disjunction item).FailsViably IsCondition := by
  have areTerms : (sepBy .orWord item).FailsViably AreTerms := by
    apply fails_sepBy (by decide) sound isItem
    · intro used term isTerm
      exact .one isTerm
    · intro used separator others term terms isTerm isSeparator areOthers
      exact .more isTerm isSeparator areOthers
  apply FailsViably.bind_pure
  apply areTerms.mono
  intro used terms areTerms
  exact ⟨_, .intro areTerms⟩

/-- Without a level to open nothing is consumed; else the soundness of the rules
one level deeper tells what the items before the fault were. -/
theorem fails_expression_and_negation (regular : dispatch.Regular)
    (allowance : Nat) :
    (expression dispatch allowance).FailsViably IsCondition ∧
      (negation dispatch allowance).FailsViably MeansPrimary := by
  induction allowance with
  | zero =>
      exact ⟨atomic_tooDeep.failsViably viable_condition,
        atomic_tooDeep.failsViably viable_primary⟩
  | succ allowance ih =>
      obtain ⟨isExpression, isNegation⟩ := ih
      obtain ⟨soundExpression, soundNegation⟩ :=
        sound_expression_and_negation regular allowance
      have isPrimary := fails_primary regular
        (soundExpression.imp fun _ _ means => means.1) isExpression
      constructor
      · have soundFactor := sound_factor regular soundNegation soundExpression
        have soundTerm := sound_conjunction soundFactor
        rw [expression_succ]
        apply fails_deepen
        apply fails_disjunction (soundTerm.imp fun _ _ means => means.1)
        apply fails_conjunction (soundFactor.imp fun _ _ means => means.1)
        exact fails_factor isNegation isPrimary
      · rw [negation_succ]
        exact fails_deepen isPrimary.bind_pure

/-- Where reading a complete condition ends with a fault, the tokens in front
are the beginning of a condition. -/
theorem fails_filter (regular : dispatch.Regular) (allowance : Nat) :
    (filter dispatch allowance).FailsViably IsCondition := by
  have isBody := (fails_expression_and_negation regular allowance).1
  apply isBody.bind (sound_expression regular allowance)
  intro used body means
  have complete : Viable (fun later => IsCondition (used ++ later)) [] := by
    apply Viable.of_meaning
    rw [List.append_nil]
    exact means.1
  apply FailsViably.bind_pure
  exact atomic_finish.failsViably complete

end Rule

end Criteria
