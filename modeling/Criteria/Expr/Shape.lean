import Criteria.Expr.Traverse
import Criteria.Expr.WellFormed

/-!
# Shape

What is seen at a single place of a tree: which constructs may stand directly
below which, and how names and literals are spelled there.  A tree has the
shape when every place of it has.
-/

namespace Criteria

namespace Expr

/-- A bare field or literal. -/
def isBare : Expr → Bool
  | field _ | literal _ => true
  | _ => false

/-- A field or a string. -/
def isFieldOrString : Expr → Bool
  | field _ => true
  | literal value => value.kind = .string
  | _ => false

/-- A disjunction, of any number of terms. -/
def isDisjunction : Expr → Bool
  | disjunction _ => true
  | _ => false

/-- A conjunction, of any number of factors. -/
def isConjunction : Expr → Bool
  | conjunction _ => true
  | _ => false

/-- What a negation may hold: a group or a predicate. -/
def isNegatable : Expr → Bool
  | group _ | comparison .. | between .. | like .. | member .. | isNull .. => true
  | _ => false

/-- The condition on the outermost construct and its direct operands. -/
def HasShape : Expr → Prop
  | filter _ => False
  | disjunction terms =>
      2 ≤ terms.length ∧ ∀ term ∈ terms, term.isDisjunction = false
  | conjunction factors =>
      2 ≤ factors.length ∧
        ∀ factor ∈ factors,
          factor.isDisjunction = false ∧ factor.isConjunction = false
  | negation inner => inner.isNegatable
  | group inner => inner.isBare = false
  | comparison left _ right => left.isBare ∧ right.isBare
  | between _ _ low high => low.isBare ∧ high.isBare
  | like _ _ pattern => pattern.isFieldOrString
  | member _ _ values => values ≠ []
  | isNull .. | field _ | literal _ => True

/-- The spellings of the names and literals held by the outermost construct. -/
def HasSpelling (expression : Expr) : Prop :=
  (∀ subject ∈ expression.ownFields, isWord subject.name.toList) ∧
    ∀ value ∈ expression.ownLiterals, value.IsSpelled

/-- A root above a tree with the shape and the spelling at every place. -/
def Shaped (expression : Expr) : Prop :=
  ∃ body, expression = .filter body ∧
    ∀ part ∈ body.walk, part.HasShape ∧ part.HasSpelling

end Expr

end Criteria
