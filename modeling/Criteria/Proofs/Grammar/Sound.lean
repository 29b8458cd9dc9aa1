import Criteria.Expr.Nesting
import Criteria.Proofs.Grammar.Dispatch
import Criteria.Proofs.Rule.Expression

/-!
# Reading gives derivations

Every condition that is read is derived by the grammar from the tokens it
consumed, and it nests less deeply than the levels that were allowed.  The
induction is on these levels; a negation and the condition around it are one
level apart, so that both are treated together.
-/

namespace Criteria

open Grammar

namespace Expr

theorem nesting_anyOf (terms : List Expr) :
    (anyOf terms).nesting = nestingAll terms := by
  unfold anyOf
  split <;> simp [nesting, nestingAll]

theorem nesting_allOf (factors : List Expr) :
    (allOf factors).nesting = nestingAll factors := by
  unfold allOf
  split <;> simp [nesting, nestingAll]

end Expr

namespace Grammar

theorem IsOperand.nesting_eq_zero {token : Token} {expression : Expr}
    (isOperand : IsOperand token expression) : expression.nesting = 0 := by
  cases isOperand <;> simp [Expr.nesting]

theorem IsTail.nesting_eq_zero {keyword : Kind} {tail : List Token}
    {denote : Field → Bool → Expr} (isTail : IsTail keyword tail denote)
    (subject : Field) (negated : Bool) : (denote subject negated).nesting = 0 := by
  cases isTail with
  | between _ isLow _ isHigh =>
      simp [Expr.nesting, isLow.nesting_eq_zero, isHigh.nesting_eq_zero]
  | like _ isPattern => cases isPattern <;> simp [Expr.nesting]
  | member => simp [Expr.nesting]

theorem IsSimple.nesting_eq_zero {tokens : List Token} {expression : Expr}
    (isSimple : IsSimple tokens expression) : expression.nesting = 0 := by
  cases isSimple with
  | tailed _ _ isTail => exact isTail.nesting_eq_zero _ _
  | isNull => simp [Expr.nesting]
  | comparison isLeft _ isRight =>
      simp [Expr.nesting, isLeft.nesting_eq_zero, isRight.nesting_eq_zero]

theorem IsNotSubject.nesting_eq_zero {tokens : List Token} {expression : Expr}
    (isNotSubject : IsNotSubject tokens expression) : expression.nesting = 0 := by
  cases isNotSubject with
  | intro _ isTail => exact isTail.nesting_eq_zero _ _

end Grammar

namespace Rule

variable {dispatch : Dispatch} {allowance : Nat}

theorem sound_primary (regular : dispatch.Regular) {inner : Rule Expr}
    (isInner : inner.Sound fun used body =>
      IsCondition used body ∧ body.nesting < allowance) :
    (primary dispatch inner).Sound fun used expression =>
      (IsPrimary used expression ∨ IsNotSubject used expression) ∧
        expression.nesting ≤ allowance := by
  have plain {tokens rest : List Token} {expression : Expr}
      (reads : (predicate dispatch).Reads tokens expression rest) :
      ∃ used, tokens = used ++ rest ∧
        (IsPrimary used expression ∨ IsNotSubject used expression) ∧
          expression.nesting ≤ allowance := by
    obtain ⟨used, split, isSimple | isNotSubject⟩ :=
      sound_predicate regular _ _ _ reads
    · exact ⟨used, split, .inl (.simple isSimple),
        by simp [isSimple.nesting_eq_zero]⟩
    · exact ⟨used, split, .inr isNotSubject,
        by simp [isNotSubject.nesting_eq_zero]⟩
  intro tokens expression rest reads
  unfold primary at reads
  rw [reads_upcoming_then] at reads
  split at reads
  · rw [reads_ask_then] at reads
    split at reads
    · simp only [reads_bind, reads_expect_of_ne, reads_pure, ne_eq,
        reduceCtorEq, not_false_eq_true] at reads
      obtain ⟨opening, _, ⟨rfl, isOpening⟩, body, _, readsBody, closing, _,
        ⟨rfl, isClosing⟩, rfl, rfl⟩ := reads
      obtain ⟨used, rfl, isCondition, fits⟩ := isInner _ _ _ readsBody
      refine ⟨opening :: (used ++ [closing]), by simp, .inl ?_, fits⟩
      exact .group isOpening isCondition isClosing
    · exact plain reads
  · exact plain reads

/-- What a negation rule reads behind the word `NOT`. -/
def MeansNegation (allowance : Nat) (used : List Token)
    (expression : Expr) : Prop :=
  ∃ inner, expression = .negation inner ∧
    (IsPrimary used inner ∨ IsNotSubject used inner) ∧
      inner.nesting < allowance

theorem sound_factor (regular : dispatch.Regular) {negated inner : Rule Expr}
    (isNegated : negated.Sound (MeansNegation allowance))
    (isInner : inner.Sound fun used body =>
      IsCondition used body ∧ body.nesting < allowance) :
    (factor negated (primary dispatch inner)).Sound fun used expression =>
      IsFactor used expression ∧ expression.nesting ≤ allowance := by
  intro tokens expression rest reads
  unfold factor at reads
  rw [reads_optional_if (by decide)] at reads
  rcases reads with ⟨notToken, middle, rfl, isNot, reads⟩ | ⟨missing, reads⟩
  · obtain ⟨used, rfl, inner, rfl, meaning, fits⟩ := isNegated _ _ _ reads
    refine ⟨notToken :: used, rfl, ?_, fits⟩
    rcases meaning with isPrimary | isNotSubject
    · exact .negation isNot isPrimary
    · exact .negatedSubject isNot isNotSubject
  · obtain ⟨used, rfl, isPrimary | isNotSubject, fits⟩ :=
      sound_primary regular isInner _ _ _ reads
    · exact ⟨used, rfl, .primary isPrimary, fits⟩
    · cases isNotSubject with
      | intro isNot => exact (missing isNot).elim

theorem sound_conjunction {item : Rule Expr}
    (isItem : item.Sound fun used expression =>
      IsFactor used expression ∧ expression.nesting ≤ allowance) :
    (conjunction item).Sound fun used expression =>
      IsTerm used expression ∧ expression.nesting ≤ allowance := by
  intro tokens expression rest reads
  unfold conjunction at reads
  simp only [reads_bind, reads_pure] at reads
  obtain ⟨factors, _, areItems, rfl, rfl⟩ := reads
  have areFactors : (sepBy .andWord item).Sound fun used factors =>
      AreFactors used factors ∧ Expr.nestingAll factors ≤ allowance := by
    apply sound_sepBy (by decide) isItem
    · intro used factor isFactor
      exact ⟨.one isFactor.1, by simpa [Expr.nestingAll] using isFactor.2⟩
    · intro used separator others factor factors isFactor isSeparator areOthers
      exact ⟨.more isFactor.1 isSeparator areOthers.1,
        Nat.max_le.mpr ⟨isFactor.2, areOthers.2⟩⟩
  obtain ⟨used, split, areFactors, fits⟩ := areFactors _ _ _ areItems
  refine ⟨used, split, .intro areFactors, ?_⟩
  rwa [Expr.nesting_allOf]

theorem sound_disjunction {item : Rule Expr}
    (isItem : item.Sound fun used expression =>
      IsTerm used expression ∧ expression.nesting ≤ allowance) :
    (disjunction item).Sound fun used expression =>
      IsCondition used expression ∧ expression.nesting ≤ allowance := by
  intro tokens expression rest reads
  unfold disjunction at reads
  simp only [reads_bind, reads_pure] at reads
  obtain ⟨terms, _, areItems, rfl, rfl⟩ := reads
  have areTerms : (sepBy .orWord item).Sound fun used terms =>
      AreTerms used terms ∧ Expr.nestingAll terms ≤ allowance := by
    apply sound_sepBy (by decide) isItem
    · intro used term isTerm
      exact ⟨.one isTerm.1, by simpa [Expr.nestingAll] using isTerm.2⟩
    · intro used separator others term terms isTerm isSeparator areOthers
      exact ⟨.more isTerm.1 isSeparator areOthers.1,
        Nat.max_le.mpr ⟨isTerm.2, areOthers.2⟩⟩
  obtain ⟨used, split, areTerms, fits⟩ := areTerms _ _ _ areItems
  refine ⟨used, split, .intro areTerms, ?_⟩
  rwa [Expr.nesting_anyOf]

theorem sound_expression_and_negation (regular : dispatch.Regular)
    (allowance : Nat) :
    ((expression dispatch allowance).Sound fun used body =>
      IsCondition used body ∧ body.nesting < allowance) ∧
    (negation dispatch allowance).Sound (MeansNegation allowance) := by
  induction allowance with
  | zero =>
      constructor
      · intro tokens body rest reads
        exact (not_reads_tooDeep reads).elim
      · intro tokens body rest reads
        exact (not_reads_tooDeep reads).elim
  | succ allowance ih =>
      obtain ⟨isExpression, isNegation⟩ := ih
      constructor
      · intro tokens body rest reads
        rw [expression_succ, reads_deepen] at reads
        have isBody := sound_disjunction (sound_conjunction
          (sound_factor regular isNegation isExpression))
        obtain ⟨used, split, isCondition, fits⟩ := isBody _ _ _ reads
        exact ⟨used, split, isCondition, Nat.lt_succ_of_le fits⟩
      · intro tokens body rest reads
        rw [negation_succ, reads_deepen] at reads
        simp only [reads_bind, reads_pure] at reads
        obtain ⟨inner, _, reads, rfl, rfl⟩ := reads
        obtain ⟨used, split, meaning, fits⟩ :=
          sound_primary regular isExpression _ _ _ reads
        exact ⟨used, split, inner, rfl, meaning, Nat.lt_succ_of_le fits⟩

theorem sound_expression (regular : dispatch.Regular) (allowance : Nat) :
    (expression dispatch allowance).Sound fun used body =>
      IsCondition used body ∧ body.nesting < allowance :=
  (sound_expression_and_negation regular allowance).1

end Rule

end Criteria
