import Criteria.Rule.Predicate

/-!
# Conditions

The rules for conditions: terms joined by `OR`, factors joined by `AND`, and
negations and groups inside.  The rules recurse on the number of levels that
are still allowed.  A condition opens one level, and so does a negation, before
anything of it is read.
-/

namespace Criteria

namespace Rule

/-- A group around the given condition, or a predicate. -/
def primary (dispatch : Dispatch) (inner : Rule Expr) : Rule Expr := do
  if (← upcoming) = .openParen then
    if ← ask dispatch.opensGroup then
      let _ ← expect .openParen
      let body ← inner
      let _ ← expect .closeParen
      return .group body
    else predicate dispatch
  else predicate dispatch

/-- A negation, or what may stand without one. -/
def factor (negated plain : Rule Expr) : Rule Expr := do
  if ← optional .notWord then negated else plain

/-- Factors joined by `AND`. -/
def conjunction (factor : Rule Expr) : Rule Expr := do
  let factors ← sepBy .andWord factor
  return .allOf factors

/-- Terms joined by `OR`. -/
def disjunction (term : Rule Expr) : Rule Expr := do
  let terms ← sepBy .orWord term
  return .anyOf terms

mutual

/-- A condition, with so many levels allowed. -/
def expression (dispatch : Dispatch) : Nat → Rule Expr
  | 0, tokens => tooDeep tokens
  | allowance + 1, tokens =>
      deepen
        (disjunction
          (conjunction
            (factor (negation dispatch allowance)
              (primary dispatch (expression dispatch allowance)))))
        tokens

/-- What follows the word `NOT`, with so many levels allowed. -/
def negation (dispatch : Dispatch) : Nat → Rule Expr
  | 0, tokens => tooDeep tokens
  | allowance + 1, tokens =>
      deepen
        (do
          let inner ← primary dispatch (expression dispatch allowance)
          return .negation inner)
        tokens

end

/-- A condition with nothing behind it. -/
def filter (dispatch : Dispatch) (allowance : Nat) : Rule Expr := do
  let body ← expression dispatch allowance
  finish
  return .filter body

end Rule

end Criteria
