import Criteria.Expr.Basic
import Criteria.Token.Basic

/-!
# Grammar

Which token sequences are conditions, and which tree each of them denotes, as
inductive relations that follow the written grammar.  They say nothing about
how a sequence is read.  A predicate with a keyword of its own may have that
keyword as its subject, and after a negation the word `NOT` may be a subject.
-/

namespace Criteria

namespace Grammar

/-- The token is a literal and denotes the given one. -/
inductive IsLiteral : Token → Literal → Prop where
  | string {token : Token} (kind : token.kind = .string) :
      IsLiteral token ⟨.string, token.text⟩
  | numeric {token : Token}
      (kind : token.kind = .integer ∨ token.kind = .float) :
      IsLiteral token ⟨.numeric, token.text⟩
  | boolean {token : Token}
      (kind : token.kind = .trueWord ∨ token.kind = .falseWord) :
      IsLiteral token ⟨.boolean, token.text⟩

/-- An operand is a field or a literal. -/
inductive IsOperand : Token → Expr → Prop where
  | field {token : Token} (kind : token.kind = .identifier) :
      IsOperand token (.field ⟨token.text⟩)
  | literal {token : Token} {value : Literal} (literal : IsLiteral token value) :
      IsOperand token (.literal value)

/-- A text is matched with a field or a string. -/
inductive IsPattern : Token → Expr → Prop where
  | field {token : Token} (kind : token.kind = .identifier) :
      IsPattern token (.field ⟨token.text⟩)
  | string {token : Token} (kind : token.kind = .string) :
      IsPattern token (.literal ⟨.string, token.text⟩)

/-- The kinds of the tokens that spell an operator. -/
inductive IsRelOp : List Kind → RelOp → Prop where
  | eq : IsRelOp [.equals] .eq
  | lt : IsRelOp [.lowerThan] .lt
  | le : IsRelOp [.lowerThan, .equals] .le
  | ne : IsRelOp [.lowerThan, .greaterThan] .ne
  | gt : IsRelOp [.greaterThan] .gt
  | ge : IsRelOp [.greaterThan, .equals] .ge
  | unequal : IsRelOp [.negate, .equals] .ne

/-- Literals with commas between them. -/
inductive IsValues : List Token → List Literal → Prop where
  | one {token : Token} {value : Literal} (literal : IsLiteral token value) :
      IsValues [token] [value]
  | more {token comma : Token} {others : List Token} {value : Literal}
      {values : List Literal} (literal : IsLiteral token value)
      (separator : comma.kind = .comma) (rest : IsValues others values) :
      IsValues (token :: comma :: others) (value :: values)

/-- What follows the subject of a predicate and the word `NOT` in it: the
keyword of the predicate, the tokens from there on, and the tree that they
denote for a subject. -/
inductive IsTail : Kind → List Token → (Field → Bool → Expr) → Prop where
  | between {keyword lowToken andToken highToken : Token} {low high : Expr}
      (kind : keyword.kind = .betweenWord) (isLow : IsOperand lowToken low)
      (isAnd : andToken.kind = .andWord) (isHigh : IsOperand highToken high) :
      IsTail .betweenWord [keyword, lowToken, andToken, highToken]
        fun subject negated => .between subject negated low high
  | like {keyword patternToken : Token} {pattern : Expr}
      (kind : keyword.kind = .likeWord)
      (isPattern : IsPattern patternToken pattern) :
      IsTail .likeWord [keyword, patternToken]
        fun subject negated => .like subject negated pattern
  | member {keyword opening closing : Token} {tokens : List Token}
      {values : List Literal} (kind : keyword.kind = .inWord)
      (isOpening : opening.kind = .openParen) (areValues : IsValues tokens values)
      (isClosing : closing.kind = .closeParen) :
      IsTail .inWord (keyword :: opening :: (tokens ++ [closing]))
        fun subject negated => .member subject negated values

/-- The word `NOT`, or nothing. -/
inductive IsOptionalNot : List Token → Bool → Prop where
  | absent : IsOptionalNot [] false
  | present {token : Token} (kind : token.kind = .notWord) :
      IsOptionalNot [token] true

/-- A predicate. -/
inductive IsSimple : List Token → Expr → Prop where
  | tailed {keyword : Kind} {subject : Token} {nots tail : List Token}
      {negated : Bool} {denote : Field → Bool → Expr}
      (subjectKind : subject.kind = .identifier ∨ subject.kind = keyword)
      (optionalNot : IsOptionalNot nots negated)
      (isTail : IsTail keyword tail denote) :
      IsSimple (subject :: (nots ++ tail)) (denote ⟨subject.text⟩ negated)
  | isNull {subject isToken nullToken : Token} {nots : List Token}
      {negated : Bool} (subjectKind : subject.kind = .identifier)
      (isKind : isToken.kind = .isWord)
      (optionalNot : IsOptionalNot nots negated)
      (nullKind : nullToken.kind = .nullWord) :
      IsSimple (subject :: isToken :: (nots ++ [nullToken]))
        (.isNull ⟨subject.text⟩ negated)
  | comparison {leftToken rightToken : Token} {operator : List Token}
      {left right : Expr} {op : RelOp} (isLeft : IsOperand leftToken left)
      (isOperator : IsRelOp (operator.map Token.kind) op)
      (isRight : IsOperand rightToken right) :
      IsSimple (leftToken :: (operator ++ [rightToken]))
        (.comparison left op right)

/-- A predicate whose subject is the word `NOT`. -/
inductive IsNotSubject : List Token → Expr → Prop where
  | intro {keyword : Kind} {subject : Token} {tail : List Token}
      {denote : Field → Bool → Expr} (subjectKind : subject.kind = .notWord)
      (isTail : IsTail keyword tail denote) :
      IsNotSubject (subject :: tail) (denote ⟨subject.text⟩ false)

mutual

/-- A condition: terms with `OR` between them. -/
inductive IsCondition : List Token → Expr → Prop where
  | intro {tokens : List Token} {terms : List Expr}
      (areTerms : AreTerms tokens terms) :
      IsCondition tokens (.anyOf terms)

/-- Terms with `OR` between them. -/
inductive AreTerms : List Token → List Expr → Prop where
  | one {tokens : List Token} {term : Expr} (isTerm : IsTerm tokens term) :
      AreTerms tokens [term]
  | more {tokens others : List Token} {separator : Token} {term : Expr}
      {terms : List Expr} (isTerm : IsTerm tokens term)
      (isSeparator : separator.kind = .orWord)
      (areTerms : AreTerms others terms) :
      AreTerms (tokens ++ separator :: others) (term :: terms)

/-- A term: factors with `AND` between them. -/
inductive IsTerm : List Token → Expr → Prop where
  | intro {tokens : List Token} {factors : List Expr}
      (areFactors : AreFactors tokens factors) :
      IsTerm tokens (.allOf factors)

/-- Factors with `AND` between them. -/
inductive AreFactors : List Token → List Expr → Prop where
  | one {tokens : List Token} {factor : Expr}
      (isFactor : IsFactor tokens factor) : AreFactors tokens [factor]
  | more {tokens others : List Token} {separator : Token} {factor : Expr}
      {factors : List Expr} (isFactor : IsFactor tokens factor)
      (isSeparator : separator.kind = .andWord)
      (areFactors : AreFactors others factors) :
      AreFactors (tokens ++ separator :: others) (factor :: factors)

/-- A factor: perhaps negated. -/
inductive IsFactor : List Token → Expr → Prop where
  | primary {tokens : List Token} {primary : Expr}
      (isPrimary : IsPrimary tokens primary) : IsFactor tokens primary
  | negation {notToken : Token} {tokens : List Token} {primary : Expr}
      (isNot : notToken.kind = .notWord)
      (isPrimary : IsPrimary tokens primary) :
      IsFactor (notToken :: tokens) (.negation primary)
  | negatedSubject {notToken : Token} {tokens : List Token} {predicate : Expr}
      (isNot : notToken.kind = .notWord)
      (isNotSubject : IsNotSubject tokens predicate) :
      IsFactor (notToken :: tokens) (.negation predicate)

/-- A predicate, or a condition in parentheses. -/
inductive IsPrimary : List Token → Expr → Prop where
  | simple {tokens : List Token} {predicate : Expr}
      (isSimple : IsSimple tokens predicate) : IsPrimary tokens predicate
  | group {opening closing : Token} {tokens : List Token} {condition : Expr}
      (isOpening : opening.kind = .openParen)
      (isCondition : IsCondition tokens condition)
      (isClosing : closing.kind = .closeParen) :
      IsPrimary (opening :: (tokens ++ [closing])) (.group condition)

end

end Grammar

end Criteria
