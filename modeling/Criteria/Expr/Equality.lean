import Criteria.Expr.Basic

/-!
# Equality of expressions

Two expressions are equal when they have the same shape and equal parts.
`Expr.same` decides this, and `Expr.same_iff` says that it does.
-/

namespace Criteria

namespace Expr

mutual

/-- Whether two expressions agree in shape and parts. -/
def same : Expr → Expr → Bool
  | filter left, filter right => left.same right
  | disjunction left, disjunction right => sameAll left right
  | conjunction left, conjunction right => sameAll left right
  | negation left, negation right => left.same right
  | group left, group right => left.same right
  | comparison left op right, comparison left' op' right' =>
      left.same left' && op = op' && right.same right'
  | between subject negated low high, between subject' negated' low' high' =>
      subject = subject' && negated = negated' && low.same low' &&
        high.same high'
  | like subject negated pattern, like subject' negated' pattern' =>
      subject = subject' && negated = negated' && pattern.same pattern'
  | member subject negated values, member subject' negated' values' =>
      subject = subject' && negated = negated' && values = values'
  | isNull subject negated, isNull subject' negated' =>
      subject = subject' && negated = negated'
  | field left, field right => left = right
  | literal left, literal right => left = right
  | _, _ => false

/-- Whether two lists of expressions agree place by place. -/
def sameAll : List Expr → List Expr → Bool
  | [], [] => true
  | left :: lefts, right :: rights => left.same right && sameAll lefts rights
  | _, _ => false

end

mutual

theorem same_self : (expression : Expr) → expression.same expression
  | filter body => by simp [same, same_self body]
  | disjunction terms => by simp [same, sameAll_self terms]
  | conjunction factors => by simp [same, sameAll_self factors]
  | negation inner => by simp [same, same_self inner]
  | group inner => by simp [same, same_self inner]
  | comparison left op right => by simp [same, same_self left, same_self right]
  | between subject negated low high => by
      simp [same, same_self low, same_self high]
  | like subject negated pattern => by simp [same, same_self pattern]
  | member .. | isNull .. | field _ | literal _ => by simp [same]

theorem sameAll_self : (expressions : List Expr) →
    sameAll expressions expressions
  | [] => rfl
  | head :: tail => by simp [sameAll, same_self head, sameAll_self tail]

end

mutual

theorem eq_of_same : (left right : Expr) → left.same right → left = right
  | filter body, right, agree => by
      cases right <;> simp [same] at agree
      rw [eq_of_same body _ agree]
  | disjunction terms, right, agree => by
      cases right <;> simp [same] at agree
      rw [eq_of_sameAll terms _ agree]
  | conjunction factors, right, agree => by
      cases right <;> simp [same] at agree
      rw [eq_of_sameAll factors _ agree]
  | negation inner, right, agree => by
      cases right <;> simp [same] at agree
      rw [eq_of_same inner _ agree]
  | group inner, right, agree => by
      cases right <;> simp [same] at agree
      rw [eq_of_same inner _ agree]
  | comparison low op high, right, agree => by
      cases right <;> simp [same] at agree
      rw [eq_of_same low _ agree.1.1, eq_of_same high _ agree.2, agree.1.2]
  | between subject negated low high, right, agree => by
      cases right <;> simp [same] at agree
      rw [eq_of_same low _ agree.1.2, eq_of_same high _ agree.2,
        agree.1.1.1, agree.1.1.2]
  | like subject negated pattern, right, agree => by
      cases right <;> simp [same] at agree
      rw [eq_of_same pattern _ agree.2, agree.1.1, agree.1.2]
  | member subject negated values, right, agree => by
      cases right <;> simp [same] at agree
      rw [agree.1.1, agree.1.2, agree.2]
  | isNull subject negated, right, agree => by
      cases right <;> simp [same] at agree
      rw [agree.1, agree.2]
  | field name, right, agree => by
      cases right <;> simp [same] at agree
      rw [agree]
  | literal value, right, agree => by
      cases right <;> simp [same] at agree
      rw [agree]

theorem eq_of_sameAll : (lefts rights : List Expr) → sameAll lefts rights →
    lefts = rights
  | [], [], _ => rfl
  | [], _ :: _, agree => by simp [sameAll] at agree
  | _ :: _, [], agree => by simp [sameAll] at agree
  | left :: lefts, right :: rights, agree => by
      simp only [sameAll, Bool.and_eq_true] at agree
      rw [eq_of_same left right agree.1, eq_of_sameAll lefts rights agree.2]

end

/-- The comparison tells exactly the equal expressions. -/
theorem same_iff {left right : Expr} : left.same right ↔ left = right :=
  ⟨eq_of_same left right, fun equal => equal ▸ same_self left⟩

end Expr

instance : DecidableEq Expr := fun _ _ =>
  decidable_of_iff _ Expr.same_iff

end Criteria
