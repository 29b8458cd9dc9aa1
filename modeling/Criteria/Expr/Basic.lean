import Criteria.Text.Word

/-!
# Expressions

The tree of a search condition.  The type is wider than what a condition can
say: it also holds empty or one-operand junctions, nested roots and bare
operands, so that a tree can be put together from parts.  `Expr.recOn'` is the
induction principle that reaches every operand of a junction.
-/

namespace Criteria

/-- A reference to a field of the searched records. -/
structure Field where
  name : String
  deriving DecidableEq, Repr, Inhabited

/-- The category of a literal. -/
inductive LiteralKind where
  | string
  | numeric
  | boolean
  deriving DecidableEq, Repr, Inhabited

/-- A literal value in the form in which it was spelled; the raw text of a
string is its content. -/
structure Literal where
  kind : LiteralKind
  raw : String
  deriving DecidableEq, Repr, Inhabited

/-- A relational operator. -/
inductive RelOp where
  | eq
  | lt
  | le
  | ne
  | gt
  | ge
  deriving DecidableEq, Repr, Inhabited

/-- A search condition. -/
inductive Expr where
  /-- The root of a complete condition. -/
  | filter (body : Expr)
  /-- Holds when one of the terms holds. -/
  | disjunction (terms : List Expr)
  /-- Holds when all factors hold. -/
  | conjunction (factors : List Expr)
  | negation (inner : Expr)
  /-- A condition in parentheses. -/
  | group (inner : Expr)
  | comparison (left : Expr) (op : RelOp) (right : Expr)
  | between (subject : Field) (negated : Bool) (low high : Expr)
  | like (subject : Field) (negated : Bool) (pattern : Expr)
  /-- Membership in a list of values. -/
  | member (subject : Field) (negated : Bool) (values : List Literal)
  | isNull (subject : Field) (negated : Bool)
  | field (field : Field)
  | literal (literal : Literal)
  deriving Repr, Inhabited

namespace Expr

/-- The disjunction of the terms; a single term stands for itself. -/
def anyOf : List Expr → Expr
  | [term] => term
  | terms => disjunction terms

/-- The conjunction of the factors; a single factor stands for itself. -/
def allOf : List Expr → Expr
  | [factor] => factor
  | factors => conjunction factors

/-- The terms of a condition, of which there is one unless it is a
disjunction. -/
def terms : Expr → List Expr
  | disjunction terms => terms
  | other => [other]

/-- The factors of a term, of which there is one unless it is a conjunction. -/
def factors : Expr → List Expr
  | conjunction factors => factors
  | other => [other]

/-- The condition below a root, or the expression itself. -/
def body : Expr → Expr
  | filter body => body
  | other => other

/-- The name of the outermost construct. -/
def tag : Expr → String
  | filter _ => "filter"
  | disjunction _ => "or"
  | conjunction _ => "and"
  | negation _ => "not"
  | group _ => "group"
  | comparison .. => "comparison"
  | between .. => "between"
  | like .. => "like"
  | member .. => "in"
  | isNull .. => "is_null"
  | field _ => "identifier"
  | literal _ => "literal"

/-- Induction on expressions, with the hypothesis for every operand of a
junction. -/
@[elab_as_elim]
theorem recOn' {motive : Expr → Prop}
    (filter : ∀ body, motive body → motive (.filter body))
    (disjunction : ∀ terms, (∀ term ∈ terms, motive term) →
      motive (.disjunction terms))
    (conjunction : ∀ factors, (∀ factor ∈ factors, motive factor) →
      motive (.conjunction factors))
    (negation : ∀ inner, motive inner → motive (.negation inner))
    (group : ∀ inner, motive inner → motive (.group inner))
    (comparison : ∀ left op right, motive left → motive right →
      motive (.comparison left op right))
    (between : ∀ subject negated low high, motive low → motive high →
      motive (.between subject negated low high))
    (like : ∀ subject negated pattern, motive pattern →
      motive (.like subject negated pattern))
    (member : ∀ subject negated values, motive (.member subject negated values))
    (isNull : ∀ subject negated, motive (.isNull subject negated))
    (field : ∀ name, motive (.field name))
    (literal : ∀ value, motive (.literal value))
    (expression : Expr) : motive expression := by
  refine Expr.rec (motive_1 := motive)
    (motive_2 := fun operands => ∀ operand ∈ operands, motive operand)
    filter disjunction conjunction negation group
    (fun left op right => comparison left op right)
    (fun subject negated low high => between subject negated low high)
    like member isNull field literal ?_ ?_ expression
  · simp
  · intro head tail headHolds tailHolds operand operandMember
    rcases List.mem_cons.mp operandMember with rfl | inTail
    · exact headHolds
    · exact tailHolds operand inTail

end Expr

namespace Literal

/-- A numeral with a point or an exponent is spelled like a float. -/
def isFloatLike (literal : Literal) : Bool :=
  literal.kind = .numeric &&
    literal.raw.toList.any fun character =>
      character = '.' || character = 'e' || character = 'E'

/-- The value of a boolean literal, spelled in any letter case. -/
def asBool? (literal : Literal) : Option Bool :=
  if literal.kind = .boolean then
    if sameWord literal.raw "true" then some true
    else if sameWord literal.raw "false" then some false
    else none
  else none

end Literal

end Criteria
