import Criteria.Expr.Basic

/-!
# Nesting

How many groups and negations lie on the way from the root of an expression to
one of its leaves, at most.  Junctions, predicates and operands do not count.
-/

namespace Criteria

namespace Expr

mutual

/-- The greatest number of groups and negations on a way down the tree. -/
def nesting : Expr → Nat
  | filter body => body.nesting
  | disjunction terms => nestingAll terms
  | conjunction factors => nestingAll factors
  | negation inner => inner.nesting + 1
  | group inner => inner.nesting + 1
  | comparison left _ right => max left.nesting right.nesting
  | between _ _ low high => max low.nesting high.nesting
  | like _ _ pattern => pattern.nesting
  | member .. => 0
  | isNull .. => 0
  | field _ => 0
  | literal _ => 0

/-- The greatest nesting among the operands, zero without operands. -/
def nestingAll : List Expr → Nat
  | [] => 0
  | operand :: operands => max operand.nesting (nestingAll operands)

end

end Expr

end Criteria
