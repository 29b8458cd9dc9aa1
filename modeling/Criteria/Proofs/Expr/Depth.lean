import Criteria.Expr.Nesting
import Criteria.Proofs.Grammar.Shape

/-!
# Height and nesting

Between one group or negation and the next, a tree that has the shape holds at
most a disjunction, a conjunction and a predicate with its operands.  Its height
is therefore bounded by its nesting, on both sides.
-/

namespace Criteria

namespace Expr

theorem depth_lt_of_mem_children {expression child : Expr}
    (isChild : child ∈ expression.children) : child.depth < expression.depth := by
  rw [depth_eq_deepest_children expression]
  apply Nat.lt_succ_of_le
  generalize expression.children = operands at isChild
  induction operands with
  | nil => cases isChild
  | cons head tail ih =>
      rcases List.mem_cons.mp isChild with rfl | inTail
      · exact Nat.le_max_left _ _
      · exact Nat.le_trans (ih inTail) (Nat.le_max_right _ _)

/-- A way down the tree meets no more parts than the tree is high. -/
theorem Descends.length_lt {expression : Expr} {below : List Expr}
    (descends : Descends expression below) : below.length < expression.depth := by
  induction descends with
  | stop =>
      rw [depth_eq_deepest_children]
      exact Nat.succ_pos _
  | step isChild _ ih =>
      exact Nat.lt_of_le_of_lt ih (depth_lt_of_mem_children isChild)

/-- Whether the outermost construct is one that nesting counts. -/
def opensLevel : Expr → Bool
  | negation _ | group _ => true
  | _ => false

theorem nesting_eq_nestingAll_children (expression : Expr) :
    expression.nesting =
      nestingAll expression.children + if expression.opensLevel then 1 else 0 := by
  cases expression <;> simp [nesting, nestingAll, children, opensLevel]

/-- The greatest height that an expression of this outermost construct has when
it holds no group and no negation. -/
def flatHeight : Expr → Nat
  | disjunction _ => 4
  | conjunction _ => 3
  | field _ | literal _ => 1
  | _ => 2

theorem flatHeight_pos (expression : Expr) : 0 < expression.flatHeight := by
  cases expression <;> simp [flatHeight]

theorem flatHeight_of_isBare {expression : Expr} (isBare : expression.isBare) :
    expression.flatHeight = 1 := by
  cases expression <;> first | rfl | cases isBare

theorem flatHeight_of_isFieldOrString {expression : Expr}
    (isPattern : expression.isFieldOrString) : expression.flatHeight = 1 := by
  cases expression <;> first | rfl | cases isPattern

theorem flatHeight_of_isNegatable {expression : Expr}
    (isNegatable : expression.isNegatable) : expression.flatHeight = 2 := by
  cases expression <;> first | rfl | cases isNegatable

theorem flatHeight_le_four (expression : Expr) : expression.flatHeight ≤ 4 := by
  cases expression <;> simp [flatHeight]

theorem flatHeight_le_three {expression : Expr}
    (notDisjunction : expression.isDisjunction = false) :
    expression.flatHeight ≤ 3 := by
  cases expression <;> simp_all [flatHeight, isDisjunction]

theorem flatHeight_le_two {expression : Expr}
    (notDisjunction : expression.isDisjunction = false)
    (notConjunction : expression.isConjunction = false) :
    expression.flatHeight ≤ 2 := by
  cases expression <;> simp_all [flatHeight, isDisjunction, isConjunction]

/-- One construct further out an expression is higher by one.  A group may hold
whatever a condition may be, which the level that it opens makes up for. -/
theorem flatHeight_child_lt {expression child : Expr} (shape : expression.HasShape)
    (isChild : child ∈ expression.children) :
    child.flatHeight <
      expression.flatHeight + if expression.opensLevel then 3 else 0 := by
  cases expression with
  | filter body => cases shape
  | disjunction terms =>
      have below := flatHeight_le_three (shape.2 child isChild)
      exact Nat.lt_succ_of_le below
  | conjunction factors =>
      obtain ⟨notDisjunction, notConjunction⟩ := shape.2 child isChild
      exact Nat.lt_succ_of_le (flatHeight_le_two notDisjunction notConjunction)
  | negation inner =>
      obtain rfl := List.mem_singleton.mp isChild
      rw [flatHeight_of_isNegatable shape]
      simp [flatHeight, opensLevel]
  | group inner => exact Nat.lt_succ_of_le (flatHeight_le_four child)
  | comparison left _ right | between _ _ left right =>
      have isBare : child.isBare := by
        rcases List.mem_pair.mp isChild with rfl | rfl
        · exact shape.1
        · exact shape.2
      rw [flatHeight_of_isBare isBare]
      simp [flatHeight, opensLevel]
  | like subject negated pattern =>
      obtain rfl := List.mem_singleton.mp isChild
      rw [flatHeight_of_isFieldOrString shape]
      simp [flatHeight, opensLevel]
  | member | isNull | field | literal => cases isChild

theorem deepest_lt {operands : List Expr} {height : Nat} (positive : 0 < height)
    (bounded : ∀ operand ∈ operands, operand.depth < 3 * operand.nesting + height) :
    deepest operands < 3 * nestingAll operands + height := by
  induction operands with
  | nil => exact Nat.lt_of_lt_of_le positive (Nat.le_add_left _ _)
  | cons head tail ih =>
      obtain ⟨headBounded, tailBounded⟩ := List.forall_mem_cons.mp bounded
      have tailDeepest := ih tailBounded
      simp only [deepest, nestingAll]
      omega

theorem nestingAll_le_deepest {operands : List Expr}
    (bounded : ∀ operand ∈ operands, operand.nesting < operand.depth) :
    nestingAll operands ≤ deepest operands := by
  induction operands with
  | nil => exact Nat.le_refl _
  | cons head tail ih =>
      obtain ⟨headBounded, tailBounded⟩ := List.forall_mem_cons.mp bounded
      have tailDeepest := ih tailBounded
      simp only [deepest, nestingAll]
      omega

theorem WellShaped.hasShape {expression : Expr} (shaped : expression.WellShaped) :
    expression.HasShape := by
  have atRoot : expression ∈ expression.walk := by
    rw [walk_eq_cons]
    exact List.mem_cons_self
  exact (shaped expression atRoot).1

theorem WellShaped.child {expression child : Expr} (shaped : expression.WellShaped)
    (isChild : child ∈ expression.children) : child.WellShaped := by
  intro part inside
  apply shaped part
  rw [walk_eq_cons]
  exact List.mem_cons_of_mem _ (List.mem_flatMap.mpr ⟨child, isChild, inside⟩)

/-- Each level of nesting adds at most three to the height: that of a group, a
disjunction and a conjunction. -/
theorem WellShaped.depth_le {expression : Expr} (shaped : expression.WellShaped) :
    expression.depth ≤ 3 * expression.nesting + expression.flatHeight := by
  induction expression using inductionOnChildren with
  | step expression ih =>
      let height := expression.flatHeight + if expression.opensLevel then 3 else 0
      have positive : 0 < height := Nat.add_pos_left (flatHeight_pos _) _
      have operands : ∀ child ∈ expression.children,
          child.depth < 3 * child.nesting + height := by
        intro child isChild
        have lower := flatHeight_child_lt shaped.hasShape isChild
        exact Nat.lt_of_le_of_lt (ih child isChild (shaped.child isChild))
          (Nat.add_lt_add_left lower _)
      have deepest := deepest_lt positive operands
      rw [depth_eq_deepest_children, nesting_eq_nestingAll_children]
      cases opens : expression.opensLevel with
      | true =>
          simp only [height, opens, if_true] at deepest ⊢
          omega
      | false =>
          simp only [height, opens, Bool.false_eq_true, if_false] at deepest ⊢
          omega

/-- Every level of nesting adds to the height. -/
theorem nesting_lt_depth (expression : Expr) :
    expression.nesting < expression.depth := by
  induction expression using recOn' with
  | filter body ih | negation body ih | group body ih | like _ _ body ih =>
      simp only [nesting, depth]
      omega
  | disjunction operands ih | conjunction operands ih =>
      have operandsLower := nestingAll_le_deepest ih
      simp only [nesting, depth]
      omega
  | comparison left _ right leftIH rightIH | between _ _ left right leftIH rightIH =>
      simp only [nesting, depth]
      omega
  | member | isNull | field | literal => exact Nat.succ_pos 0

end Expr

end Criteria
