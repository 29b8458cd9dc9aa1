import Criteria.Expr.Shape
import Criteria.Proofs.Grammar.Render

/-!
# Conditions put together

Two conditions with `OR` or `AND` between them are a condition again, and so is
a condition in parentheses, negated or not.  With `OR` the terms of both stand
one after the other.  `AND` binds more tightly, so that it joins the factors of
the last term in front of it and of the first term behind it.
-/

namespace Criteria

namespace Expr

theorem terms_of_not_isDisjunction {expression : Expr}
    (noDisjunction : expression.isDisjunction = false) :
    expression.terms = [expression] := by
  cases expression with
  | disjunction terms => cases noDisjunction
  | _ => rfl

theorem factors_of_not_isConjunction {expression : Expr}
    (noConjunction : expression.isConjunction = false) :
    expression.factors = [expression] := by
  cases expression with
  | conjunction factors => cases noConjunction
  | _ => rfl

theorem terms_anyOf {terms : List Expr}
    (noDisjunction : ∀ term ∈ terms, term.isDisjunction = false) :
    (anyOf terms).terms = terms := by
  unfold anyOf
  split
  · exact terms_of_not_isDisjunction (noDisjunction _ List.mem_cons_self)
  · rfl

theorem factors_allOf {factors : List Expr}
    (noConjunction : ∀ factor ∈ factors, factor.isConjunction = false) :
    (allOf factors).factors = factors := by
  unfold allOf
  split
  · exact factors_of_not_isConjunction (noConjunction _ List.mem_cons_self)
  · rfl

theorem isDisjunction_allOf {factors : List Expr}
    (noDisjunction : ∀ factor ∈ factors, factor.isDisjunction = false) :
    (allOf factors).isDisjunction = false := by
  unfold allOf
  split
  · exact noDisjunction _ List.mem_cons_self
  · rfl

section Several

variable {left right : List Expr}

theorem anyOf_append (someLeft : left ≠ []) (someRight : right ≠ []) :
    anyOf (left ++ right) = .disjunction (left ++ right) := by
  cases left with
  | nil => exact (someLeft rfl).elim
  | cons first others =>
      cases right with
      | nil => exact (someRight rfl).elim
      | cons second further => cases others <;> rfl

theorem allOf_append (someLeft : left ≠ []) (someRight : right ≠ []) :
    allOf (left ++ right) = .conjunction (left ++ right) := by
  cases left with
  | nil => exact (someLeft rfl).elim
  | cons first others =>
      cases right with
      | nil => exact (someRight rfl).elim
      | cons second further => cases others <;> rfl

end Several

/-- Neither a disjunction nor a conjunction. -/
def IsNoJunction (expression : Expr) : Prop :=
  expression.isDisjunction = false ∧ expression.isConjunction = false

end Expr

namespace Grammar

section Junctions

variable {tokens : List Token} {expression : Expr}

theorem IsTail.isNoJunction {keyword : Kind} {denote : Field → Bool → Expr}
    (isTail : IsTail keyword tokens denote) (subject : Field) (negated : Bool) :
    (denote subject negated).IsNoJunction := by
  cases isTail <;> exact ⟨rfl, rfl⟩

theorem IsSimple.isNoJunction (isSimple : IsSimple tokens expression) :
    expression.IsNoJunction := by
  cases isSimple with
  | tailed _ _ isTail => exact isTail.isNoJunction _ _
  | isNull | comparison => exact ⟨rfl, rfl⟩

theorem IsPrimary.isNoJunction (isPrimary : IsPrimary tokens expression) :
    expression.IsNoJunction := by
  cases isPrimary with
  | simple isSimple => exact isSimple.isNoJunction
  | group => exact ⟨rfl, rfl⟩

theorem IsFactor.isNoJunction (isFactor : IsFactor tokens expression) :
    expression.IsNoJunction := by
  cases isFactor with
  | primary isPrimary => exact isPrimary.isNoJunction
  | negation | negatedSubject => exact ⟨rfl, rfl⟩

theorem AreFactors.areNoJunctions {tokens : List Token} {factors : List Expr}
    (areFactors : AreFactors tokens factors) :
    ∀ factor ∈ factors, factor.IsNoJunction := by
  cases areFactors with
  | one isFactor => exact List.forall_mem_singleton.mpr isFactor.isNoJunction
  | more isFactor _ areOthers =>
      exact List.forall_mem_cons.mpr
        ⟨isFactor.isNoJunction, areOthers.areNoJunctions⟩

theorem IsTerm.not_isDisjunction (isTerm : IsTerm tokens expression) :
    expression.isDisjunction = false := by
  cases isTerm with
  | intro areFactors =>
      apply Expr.isDisjunction_allOf
      intro factor member
      exact (areFactors.areNoJunctions factor member).1

theorem AreTerms.not_isDisjunction {tokens : List Token} {terms : List Expr}
    (areTerms : AreTerms tokens terms) :
    ∀ term ∈ terms, term.isDisjunction = false := by
  cases areTerms with
  | one isTerm => exact List.forall_mem_singleton.mpr isTerm.not_isDisjunction
  | more isTerm _ areOthers =>
      exact List.forall_mem_cons.mpr
        ⟨isTerm.not_isDisjunction, areOthers.not_isDisjunction⟩

/-- The terms of a condition are those between which its tokens have `OR`. -/
theorem IsCondition.areTerms (isCondition : IsCondition tokens expression) :
    AreTerms tokens expression.terms := by
  cases isCondition with
  | intro areTerms =>
      rw [Expr.terms_anyOf areTerms.not_isDisjunction]
      exact areTerms

/-- The factors of a term are those between which its tokens have `AND`. -/
theorem IsTerm.areFactors (isTerm : IsTerm tokens expression) :
    AreFactors tokens expression.factors := by
  cases isTerm with
  | intro areFactors =>
      rw [Expr.factors_allOf]
      · exact areFactors
      · intro factor member
        exact (areFactors.areNoJunctions factor member).2

end Junctions

section Joined

theorem AreTerms.append {left right : List Token} {separator : Token}
    {terms others : List Expr} :
    AreTerms left terms → separator.kind = .orWord → AreTerms right others →
      AreTerms (left ++ separator :: right) (terms ++ others)
  | .one isTerm, isSeparator, areOthers => .more isTerm isSeparator areOthers
  | .more isTerm isInner areTerms, isSeparator, areOthers => by
      rw [List.append_assoc]
      exact .more isTerm isInner (areTerms.append isSeparator areOthers)

theorem AreFactors.append {left right : List Token} {separator : Token}
    {factors others : List Expr} :
    AreFactors left factors → separator.kind = .andWord →
      AreFactors right others →
        AreFactors (left ++ separator :: right) (factors ++ others)
  | .one isFactor, isSeparator, areOthers =>
      .more isFactor isSeparator areOthers
  | .more isFactor isInner areFactors, isSeparator, areOthers => by
      rw [List.append_assoc]
      exact .more isFactor isInner (areFactors.append isSeparator areOthers)

variable {left right : List Token} {separator : Token}

theorem IsTerm.conjoin {last first : Expr} (isLast : IsTerm left last)
    (isSeparator : separator.kind = .andWord) (isFirst : IsTerm right first) :
    IsTerm (left ++ separator :: right)
      (.conjunction (last.factors ++ first.factors)) := by
  rw [← Expr.allOf_append isLast.areFactors.ne_nil isFirst.areFactors.ne_nil]
  exact .intro (isLast.areFactors.append isSeparator isFirst.areFactors)

theorem IsTerm.conjoin_terms {last : Expr} {terms : List Expr}
    (isLast : IsTerm left last) (isSeparator : separator.kind = .andWord)
    (areTerms : AreTerms right terms) :
    ∃ first behind, terms = first :: behind ∧
      AreTerms (left ++ separator :: right)
        (.conjunction (last.factors ++ first.factors) :: behind) := by
  cases areTerms with
  | one isFirst => exact ⟨_, [], rfl, .one (isLast.conjoin isSeparator isFirst)⟩
  | more isFirst isOr areOthers =>
      refine ⟨_, _, rfl, ?_⟩
      rw [← List.cons_append, ← List.append_assoc]
      exact .more (isLast.conjoin isSeparator isFirst) isOr areOthers

/-- With `AND` between them, the last of some terms and the first of others
become one term. -/
theorem AreTerms.conjoin {left right : List Token} {separator : Token}
    {terms others : List Expr} :
    AreTerms left terms → separator.kind = .andWord → AreTerms right others →
      ∃ before last first behind, terms = before ++ [last] ∧
        others = first :: behind ∧
        AreTerms (left ++ separator :: right)
          (before ++ .conjunction (last.factors ++ first.factors) :: behind)
  | .one isLast, isSeparator, areOthers => by
      obtain ⟨first, behind, isFirst, joined⟩ :=
        isLast.conjoin_terms isSeparator areOthers
      exact ⟨[], _, first, behind, rfl, isFirst, joined⟩
  | @AreTerms.more _ _ _ term _ isTerm isOr areTerms, isSeparator, areOthers => by
      obtain ⟨before, last, first, behind, isLast, isFirst, joined⟩ :=
        areTerms.conjoin isSeparator areOthers
      refine ⟨term :: before, last, first, behind, ?_, isFirst, ?_⟩
      · rw [isLast, List.cons_append]
      · rw [List.append_assoc]
        exact .more isTerm isOr joined

variable {leftBody rightBody : Expr}

theorem IsCondition.disjoin (isLeft : IsCondition left leftBody)
    (isSeparator : separator.kind = .orWord)
    (isRight : IsCondition right rightBody) :
    IsCondition (left ++ separator :: right)
      (.disjunction (leftBody.terms ++ rightBody.terms)) := by
  rw [← Expr.anyOf_append isLeft.areTerms.ne_nil isRight.areTerms.ne_nil]
  exact .intro (isLeft.areTerms.append isSeparator isRight.areTerms)

theorem IsCondition.conjoin (isLeft : IsCondition left leftBody)
    (isSeparator : separator.kind = .andWord)
    (isRight : IsCondition right rightBody) :
    ∃ before last first behind, leftBody.terms = before ++ [last] ∧
      rightBody.terms = first :: behind ∧
      IsCondition (left ++ separator :: right)
        (.anyOf
          (before ++ .conjunction (last.factors ++ first.factors) :: behind)) := by
  obtain ⟨before, last, first, behind, lastTerm, firstTerm, joined⟩ :=
    isLeft.areTerms.conjoin isSeparator isRight.areTerms
  exact ⟨before, last, first, behind, lastTerm, firstTerm, .intro joined⟩

theorem IsFactor.isCondition {tokens : List Token} {factor : Expr}
    (isFactor : IsFactor tokens factor) : IsCondition tokens factor :=
  .intro (.one (.intro (.one isFactor)))

end Joined

end Grammar

end Criteria
