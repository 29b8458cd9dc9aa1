import Criteria.Expr.Basic
import Criteria.Text.Lexical
import Criteria.Token.Kind

/-!
# Well-formed expressions

The trees that a condition can denote: the levels of the grammar are kept
apart, junctions have at least two operands, and names, numerals and booleans
are spelled as the lexical grammar wants them.  The contents of strings are
arbitrary.
-/

namespace Criteria

/-- A name that no keyword spells. -/
def Field.IsPlain (field : Field) : Prop :=
  isWord field.name.toList ∧ Kind.ofWord field.name = .identifier

/-- A literal whose raw text fits its category. -/
def Literal.IsSpelled (literal : Literal) : Prop :=
  match literal.kind with
  | .string => True
  | .numeric => IsNumber literal.raw.toList
  | .boolean => literal.asBool?.isSome

namespace Expr

/-- An operand of a comparison, or a bound. -/
inductive IsOperand : Expr → Prop where
  | field {field : Field} (plain : field.IsPlain) : IsOperand (.field field)
  | literal {literal : Literal} (spelled : literal.IsSpelled) :
      IsOperand (.literal literal)

/-- What a text is matched with. -/
inductive IsPattern : Expr → Prop where
  | field {field : Field} (plain : field.IsPlain) : IsPattern (.field field)
  | string {literal : Literal} (kind : literal.kind = .string) :
      IsPattern (.literal literal)

/-- A predicate. -/
inductive IsPredicate : Expr → Prop where
  | comparison {left right : Expr} {op : RelOp} (isLeft : IsOperand left)
      (isRight : IsOperand right) : IsPredicate (.comparison left op right)
  | between {subject : Field} {negated : Bool} {low high : Expr}
      (plain : subject.IsPlain) (isLow : IsOperand low)
      (isHigh : IsOperand high) :
      IsPredicate (.between subject negated low high)
  | like {subject : Field} {negated : Bool} {pattern : Expr}
      (plain : subject.IsPlain) (isPattern : IsPattern pattern) :
      IsPredicate (.like subject negated pattern)
  | member {subject : Field} {negated : Bool} {values : List Literal}
      (plain : subject.IsPlain) (someValue : values ≠ [])
      (spelled : ∀ value ∈ values, value.IsSpelled) :
      IsPredicate (.member subject negated values)
  | isNull {subject : Field} {negated : Bool} (plain : subject.IsPlain) :
      IsPredicate (.isNull subject negated)

mutual

/-- A condition: two or more terms, or one. -/
inductive IsBody : Expr → Prop where
  | disjunction {terms : List Expr} (several : 2 ≤ terms.length)
      (areTerms : ∀ term ∈ terms, IsTerm term) : IsBody (.disjunction terms)
  | term {expression : Expr} (isTerm : IsTerm expression) : IsBody expression

/-- A term: two or more factors, or one. -/
inductive IsTerm : Expr → Prop where
  | conjunction {factors : List Expr} (several : 2 ≤ factors.length)
      (areFactors : ∀ factor ∈ factors, IsFactor factor) :
      IsTerm (.conjunction factors)
  | factor {expression : Expr} (isFactor : IsFactor expression) :
      IsTerm expression

/-- A factor: a negation, or what may stand without one. -/
inductive IsFactor : Expr → Prop where
  | negation {inner : Expr} (isPrimary : IsPrimary inner) :
      IsFactor (.negation inner)
  | primary {expression : Expr} (isPrimary : IsPrimary expression) :
      IsFactor expression

/-- A group, or a predicate. -/
inductive IsPrimary : Expr → Prop where
  | group {inner : Expr} (isBody : IsBody inner) : IsPrimary (.group inner)
  | predicate {expression : Expr} (isPredicate : IsPredicate expression) :
      IsPrimary expression

end

/-- The root above a condition. -/
inductive WellFormed : Expr → Prop where
  | filter {body : Expr} (isBody : IsBody body) : WellFormed (.filter body)

end Expr

end Criteria
