import Criteria.Proofs.Rule.Reads
import Criteria.Rule.Expression

/-!
# The rules for conditions, case by case

A primary is a group or a predicate and a factor is negated or not, depending
on the tokens at the front.  The rules that recurse on the allowed levels are
unfolded by one level here, and nowhere else.
-/

namespace Criteria

namespace Rule

variable {dispatch : Dispatch} {tokens : List Token}

theorem primary_of_group {inner : Rule Expr} {opening : Token}
    (isOpening : opening.kind = .openParen)
    (opens : dispatch.opensGroup (opening :: tokens)) :
    primary dispatch inner (opening :: tokens) =
      (do
        let body ← inner
        let _ ← expect .closeParen
        return .group body : Rule Expr) tokens := by
  have accepted : expect .openParen (opening :: tokens) =
      ⟨.ok opening, tokens, [], 0⟩ := by
    simp [expect, isOpening, Kind.accepts]
  unfold primary
  rw [bind_of_pass (upcoming_eq _), Token.headKind_cons, if_pos isOpening,
    bind_of_pass (ask_eq _ _), if_pos opens, bind_of_pass accepted]

theorem primary_of_predicate {inner : Rule Expr}
    (noGroup : Token.headKind tokens = .openParen →
      dispatch.opensGroup tokens = false) :
    primary dispatch inner tokens = predicate dispatch tokens := by
  unfold primary
  rw [bind_of_pass (upcoming_eq _)]
  split
  · rename_i isOpening
    rw [bind_of_pass (ask_eq _ _), noGroup isOpening]
    rfl
  · rfl

theorem factor_of_not {negated plain : Rule Expr} {notToken : Token}
    (isNot : notToken.kind = .notWord) :
    factor negated plain (notToken :: tokens) = negated tokens := by
  unfold factor
  rw [bind_of_pass (optional_of_present isNot)]
  rfl

theorem factor_of_other {negated plain : Rule Expr}
    (other : Token.headKind tokens ≠ .notWord) :
    factor negated plain tokens = plain tokens := by
  unfold factor
  rw [bind_of_pass (optional_of_absent other)]
  rfl

theorem expression_succ (dispatch : Dispatch) (allowance : Nat) :
    expression dispatch (allowance + 1) =
      deepen (disjunction (conjunction (factor (negation dispatch allowance)
        (primary dispatch (expression dispatch allowance))))) :=
  rfl

theorem negation_succ (dispatch : Dispatch) (allowance : Nat) :
    negation dispatch (allowance + 1) =
      deepen (do
        let inner ← primary dispatch (expression dispatch allowance)
        return .negation inner) :=
  rfl

end Rule

end Criteria
