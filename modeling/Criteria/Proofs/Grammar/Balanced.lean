import Criteria.Grammar
import Criteria.Rule.Lookahead

/-!
# Balanced tokens

Whatever the grammar derives holds its parentheses in matching pairs.  A scan
for a closing parenthesis therefore passes over it unchanged, and behind a
group it finds the token that follows the group.
-/

namespace Criteria

/-- Whether a token of this kind counts in a scan for a closing parenthesis. -/
def isParenthesis (kind : Kind) : Bool :=
  kind = .openParen || kind = .closeParen

/-- Tokens whose parentheses come in matching pairs. -/
inductive Balanced : List Token → Prop where
  | nil : Balanced []
  | single {token : Token} (plain : isParenthesis token.kind = false) :
      Balanced [token]
  | enclosed {opening closing : Token} {tokens : List Token}
      (isOpening : opening.kind = .openParen) (balanced : Balanced tokens)
      (isClosing : closing.kind = .closeParen) :
      Balanced (opening :: (tokens ++ [closing]))
  | append {left right : List Token} (isLeft : Balanced left)
      (isRight : Balanced right) : Balanced (left ++ right)

namespace Balanced

/-- A scan passes over balanced tokens and has as many parentheses to close
behind them as before. -/
theorem kindBeyond_append {tokens : List Token} (balanced : Balanced tokens)
    (unmatched : Nat) (rest : List Token) :
    kindBeyond (unmatched + 1) (tokens ++ rest) =
      kindBeyond (unmatched + 1) rest := by
  induction balanced generalizing unmatched rest with
  | nil => rfl
  | @single token plain =>
      rw [List.singleton_append, kindBeyond]
      split
      · rename_i isOpening
        simp [isParenthesis, isOpening] at plain
      · rename_i isClosing
        simp [isParenthesis, isClosing] at plain
      · rfl
  | @enclosed opening closing tokens isOpening balanced isClosing ih =>
      calc
        kindBeyond (unmatched + 1) (opening :: (tokens ++ [closing]) ++ rest) =
            kindBeyond (unmatched + 2) (tokens ++ closing :: rest) := by
          simp [kindBeyond, isOpening]
        _ = kindBeyond (unmatched + 2) (closing :: rest) := ih _ _
        _ = kindBeyond (unmatched + 1) rest := by
          simp [kindBeyond, isClosing]
  | @append left right isLeft isRight leftIH rightIH =>
      rw [List.append_assoc, leftIH, rightIH]

theorem cons_of_kind {token : Token} {kind : Kind} {tokens : List Token}
    (isKind : token.kind = kind) (plain : isParenthesis kind = false)
    (balanced : Balanced tokens) : Balanced (token :: tokens) := by
  subst isKind
  exact .append (.single plain) balanced

theorem of_forall {tokens : List Token}
    (plain : ∀ token ∈ tokens, isParenthesis token.kind = false) :
    Balanced tokens := by
  induction tokens with
  | nil => exact .nil
  | cons first others ih =>
      obtain ⟨firstPlain, othersPlain⟩ := List.forall_mem_cons.mp plain
      exact .append (.single firstPlain) (ih othersPlain)

end Balanced

namespace Grammar

theorem IsLiteral.balanced_cons {token : Token} {value : Literal}
    (isLiteral : IsLiteral token value) {tokens : List Token}
    (balanced : Balanced tokens) : Balanced (token :: tokens) := by
  cases isLiteral with
  | string kind => exact .cons_of_kind kind rfl balanced
  | numeric kind | boolean kind =>
      rcases kind with kind | kind
      · exact .cons_of_kind kind rfl balanced
      · exact .cons_of_kind kind rfl balanced

theorem IsOperand.balanced_cons {token : Token} {expression : Expr}
    (isOperand : IsOperand token expression) {tokens : List Token}
    (balanced : Balanced tokens) : Balanced (token :: tokens) := by
  cases isOperand with
  | field kind => exact .cons_of_kind kind rfl balanced
  | literal isLiteral => exact isLiteral.balanced_cons balanced

theorem IsPattern.balanced_cons {token : Token} {expression : Expr}
    (isPattern : IsPattern token expression) {tokens : List Token}
    (balanced : Balanced tokens) : Balanced (token :: tokens) := by
  cases isPattern with
  | field kind | string kind =>
      exact .cons_of_kind kind rfl balanced

theorem IsValues.balanced {tokens : List Token} {values : List Literal}
    (areValues : IsValues tokens values) : Balanced tokens := by
  induction areValues with
  | one isLiteral => exact isLiteral.balanced_cons .nil
  | more isLiteral isComma _ ih =>
      exact isLiteral.balanced_cons
        (.cons_of_kind isComma rfl ih)

theorem IsTail.balanced {keyword : Kind} {tail : List Token}
    {denote : Field → Bool → Expr} (isTail : IsTail keyword tail denote) :
    Balanced tail := by
  cases isTail with
  | between kind isLow isAnd isHigh =>
      exact .cons_of_kind kind rfl
        (isLow.balanced_cons (.cons_of_kind isAnd rfl
          (isHigh.balanced_cons .nil)))
  | like kind isPattern =>
      exact .cons_of_kind kind rfl
        (isPattern.balanced_cons .nil)
  | member kind isOpening areValues isClosing =>
      exact .cons_of_kind kind rfl
        (.enclosed isOpening areValues.balanced isClosing)

theorem IsOptionalNot.balanced {nots : List Token} {negated : Bool}
    (optionalNot : IsOptionalNot nots negated) : Balanced nots := by
  cases optionalNot with
  | absent => exact .nil
  | present isNot => exact .cons_of_kind isNot rfl .nil

theorem IsRelOp.plain {kinds : List Kind} {op : RelOp}
    (isRelOp : IsRelOp kinds op) : ∀ kind ∈ kinds, isParenthesis kind = false := by
  cases isRelOp <;> simp [isParenthesis]

theorem IsRelOp.balanced {operator : List Token} {op : RelOp}
    (isRelOp : IsRelOp (operator.map Token.kind) op) : Balanced operator := by
  apply Balanced.of_forall
  intro token member
  exact isRelOp.plain token.kind (List.mem_map_of_mem member)

theorem IsSimple.balanced {tokens : List Token} {expression : Expr}
    (isSimple : IsSimple tokens expression) : Balanced tokens := by
  cases isSimple with
  | tailed subjectKind optionalNot isTail =>
      have rest := Balanced.append optionalNot.balanced isTail.balanced
      rcases subjectKind with isIdentifier | isKeyword
      · exact .cons_of_kind isIdentifier rfl rest
      · apply Balanced.cons_of_kind isKeyword _ rest
        cases isTail <;> rfl
  | isNull subjectKind isKind optionalNot nullKind =>
      have null := Balanced.cons_of_kind nullKind rfl .nil
      exact .cons_of_kind subjectKind rfl
        (.cons_of_kind isKind rfl
          (.append optionalNot.balanced null))
  | comparison isLeft isRelOp isRight =>
      exact isLeft.balanced_cons
        (.append isRelOp.balanced (isRight.balanced_cons .nil))

theorem IsNotSubject.balanced {tokens : List Token} {expression : Expr}
    (isNotSubject : IsNotSubject tokens expression) : Balanced tokens := by
  cases isNotSubject with
  | intro isNot isTail =>
      exact .cons_of_kind isNot rfl isTail.balanced

mutual

theorem IsCondition.balanced {tokens : List Token} {body : Expr} :
    IsCondition tokens body → Balanced tokens
  | .intro areTerms => areTerms.balanced

theorem AreTerms.balanced {tokens : List Token} {terms : List Expr} :
    AreTerms tokens terms → Balanced tokens
  | .one isTerm => isTerm.balanced
  | .more isTerm isSeparator areOthers =>
      .append isTerm.balanced
        (.cons_of_kind isSeparator rfl areOthers.balanced)

theorem IsTerm.balanced {tokens : List Token} {term : Expr} :
    IsTerm tokens term → Balanced tokens
  | .intro areFactors => areFactors.balanced

theorem AreFactors.balanced {tokens : List Token} {factors : List Expr} :
    AreFactors tokens factors → Balanced tokens
  | .one isFactor => isFactor.balanced
  | .more isFactor isSeparator areOthers =>
      .append isFactor.balanced
        (.cons_of_kind isSeparator rfl areOthers.balanced)

theorem IsFactor.balanced {tokens : List Token} {factor : Expr} :
    IsFactor tokens factor → Balanced tokens
  | .primary isPrimary => isPrimary.balanced
  | .negation isNot isPrimary =>
      .cons_of_kind isNot rfl isPrimary.balanced
  | .negatedSubject isNot isNotSubject =>
      .cons_of_kind isNot rfl isNotSubject.balanced

theorem IsPrimary.balanced {tokens : List Token} {primary : Expr} :
    IsPrimary tokens primary → Balanced tokens
  | .simple isSimple => isSimple.balanced
  | .group isOpening isCondition isClosing =>
      .enclosed isOpening isCondition.balanced isClosing

end

end Grammar

end Criteria
