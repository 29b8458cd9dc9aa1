import Criteria.Proofs.Grammar.Render
import Criteria.Proofs.Token.Seam

/-!
# Conditions are classified

The grammar names the kind of every token that it derives, and it never asks for
an unclassified one.
-/

namespace Criteria

namespace Grammar

section Parts

variable {token : Token} {tokens : List Token}

theorem IsPattern.classified {pattern : Expr}
    (isPattern : IsPattern token pattern) : token.kind ≠ .unclassified :=
  isPattern.isOperand.classified

theorem IsValues.areClassified {values : List Literal}
    (areValues : IsValues tokens values) : AreClassified tokens := by
  induction areValues with
  | one isLiteral => exact .cons isLiteral.classified areClassified_nil
  | more isLiteral isComma _ ih =>
      exact .cons isLiteral.classified (.cons_of_kind isComma (by decide) ih)

theorem IsTail.areClassified {keyword : Kind} {denote : Field → Bool → Expr}
    (isTail : IsTail keyword tokens denote) : AreClassified tokens := by
  cases isTail with
  | between isKeyword isLow isAnd isHigh =>
      exact .cons_of_kind isKeyword (by decide) (.cons isLow.classified
        (.cons_of_kind isAnd (by decide)
          (.cons isHigh.classified areClassified_nil)))
  | like isKeyword isPattern =>
      exact .cons_of_kind isKeyword (by decide)
        (.cons isPattern.classified areClassified_nil)
  | member isKeyword isOpening areValues isClosing =>
      exact .cons_of_kind isKeyword (by decide)
        (.enclosed isOpening areValues.areClassified isClosing)

theorem IsTail.keyword_classified {keyword : Kind}
    {denote : Field → Bool → Expr} (isTail : IsTail keyword tokens denote) :
    keyword ≠ .unclassified := by
  cases isTail <;> decide

theorem IsOptionalNot.areClassified {negated : Bool}
    (optionalNot : IsOptionalNot tokens negated) : AreClassified tokens := by
  cases optionalNot with
  | absent => exact areClassified_nil
  | present isNot => exact .cons_of_kind isNot (by decide) areClassified_nil

theorem IsRelOp.classified {kinds : List Kind} {op : RelOp}
    (isRelOp : IsRelOp kinds op) : ∀ kind ∈ kinds, kind ≠ .unclassified := by
  cases isRelOp <;> simp

theorem IsRelOp.areClassified {op : RelOp}
    (isRelOp : IsRelOp (tokens.map Token.kind) op) : AreClassified tokens := by
  intro token member
  exact isRelOp.classified token.kind (List.mem_map_of_mem member)

theorem IsSimple.areClassified {predicate : Expr}
    (isSimple : IsSimple tokens predicate) : AreClassified tokens := by
  cases isSimple with
  | tailed subjectKind optionalNot isTail =>
      have areOthers := optionalNot.areClassified.append isTail.areClassified
      rcases subjectKind with isIdentifier | isKeyword
      · exact .cons_of_kind isIdentifier (by decide) areOthers
      · exact .cons_of_kind isKeyword isTail.keyword_classified areOthers
  | isNull subjectKind isKeyword optionalNot nullKind =>
      have null := AreClassified.cons_of_kind nullKind (by decide) areClassified_nil
      exact .cons_of_kind subjectKind (by decide)
        (.cons_of_kind isKeyword (by decide) (optionalNot.areClassified.append null))
  | comparison isLeft isRelOp isRight =>
      exact .cons isLeft.classified
        (isRelOp.areClassified.append (.cons isRight.classified areClassified_nil))

theorem IsNotSubject.areClassified {predicate : Expr}
    (isNotSubject : IsNotSubject tokens predicate) : AreClassified tokens := by
  cases isNotSubject with
  | intro isNot isTail =>
      exact .cons_of_kind isNot (by decide) isTail.areClassified

end Parts

mutual

theorem IsCondition.areClassified {tokens : List Token} {body : Expr} :
    IsCondition tokens body → AreClassified tokens
  | .intro areTerms => areTerms.areClassified

theorem AreTerms.areClassified {tokens : List Token} {terms : List Expr} :
    AreTerms tokens terms → AreClassified tokens
  | .one isTerm => isTerm.areClassified
  | .more isTerm isSeparator areOthers =>
      .append isTerm.areClassified
        (.cons_of_kind isSeparator (by decide) areOthers.areClassified)

theorem IsTerm.areClassified {tokens : List Token} {term : Expr} :
    IsTerm tokens term → AreClassified tokens
  | .intro areFactors => areFactors.areClassified

theorem AreFactors.areClassified {tokens : List Token} {factors : List Expr} :
    AreFactors tokens factors → AreClassified tokens
  | .one isFactor => isFactor.areClassified
  | .more isFactor isSeparator areOthers =>
      .append isFactor.areClassified
        (.cons_of_kind isSeparator (by decide) areOthers.areClassified)

theorem IsFactor.areClassified {tokens : List Token} {factor : Expr} :
    IsFactor tokens factor → AreClassified tokens
  | .primary isPrimary => isPrimary.areClassified
  | .negation isNot isPrimary =>
      .cons_of_kind isNot (by decide) isPrimary.areClassified
  | .negatedSubject isNot isNotSubject =>
      .cons_of_kind isNot (by decide) isNotSubject.areClassified

theorem IsPrimary.areClassified {tokens : List Token} {primary : Expr} :
    IsPrimary tokens primary → AreClassified tokens
  | .simple isSimple => isSimple.areClassified
  | .group isOpening isCondition isClosing =>
      .enclosed isOpening isCondition.areClassified isClosing

end

end Grammar

end Criteria
