import Criteria.Expr.Basic

/-!
# Parts of an expression

The direct operands, all parts in the order in which the text shows them, the
fields and literals that occur, and the height of the tree.  The subject of a
predicate and the values of a membership list are no expressions of their own;
they are found by `fields` and `literals`.
-/

namespace Criteria

namespace Expr

/-- The direct operands, left to right. -/
def children : Expr → List Expr
  | filter body => [body]
  | disjunction terms => terms
  | conjunction factors => factors
  | negation inner | group inner => [inner]
  | comparison left _ right => [left, right]
  | between _ _ low high => [low, high]
  | like _ _ pattern => [pattern]
  | member .. | isNull .. | field _ | literal _ => []

mutual

/-- The expression and all its parts, each before its own parts. -/
def walk : Expr → List Expr
  | filter body => filter body :: body.walk
  | disjunction terms => disjunction terms :: walkAll terms
  | conjunction factors => conjunction factors :: walkAll factors
  | negation inner => negation inner :: inner.walk
  | group inner => group inner :: inner.walk
  | comparison left op right =>
      comparison left op right :: (left.walk ++ right.walk)
  | between subject negated low high =>
      between subject negated low high :: (low.walk ++ high.walk)
  | like subject negated pattern =>
      like subject negated pattern :: pattern.walk
  | member subject negated values => [member subject negated values]
  | isNull subject negated => [isNull subject negated]
  | field name => [field name]
  | literal value => [literal value]

/-- The walks of the operands one after the other. -/
def walkAll : List Expr → List Expr
  | [] => []
  | operand :: operands => operand.walk ++ walkAll operands

end

/-- The fields named by the outermost construct itself. -/
def ownFields : Expr → List Field
  | between subject .. | like subject .. | member subject .. | isNull subject _
  | field subject => [subject]
  | _ => []

/-- The literals held by the outermost construct itself. -/
def ownLiterals : Expr → List Literal
  | member _ _ values => values
  | literal value => [value]
  | _ => []

/-- Every field reference in the order of the text, subjects included. -/
def fields (expression : Expr) : List Field :=
  expression.walk.flatMap ownFields

/-- Every literal in the order of the text, listed values included. -/
def literals (expression : Expr) : List Literal :=
  expression.walk.flatMap ownLiterals

mutual

/-- The height of the tree; an expression without operands has height one. -/
def depth : Expr → Nat
  | filter body => body.depth + 1
  | disjunction terms => deepest terms + 1
  | conjunction factors => deepest factors + 1
  | negation inner => inner.depth + 1
  | group inner => inner.depth + 1
  | comparison left _ right => max left.depth right.depth + 1
  | between _ _ low high => max low.depth high.depth + 1
  | like _ _ pattern => pattern.depth + 1
  | member .. => 1
  | isNull .. => 1
  | field _ => 1
  | literal _ => 1

/-- The greatest height among the operands, zero without operands. -/
def deepest : List Expr → Nat
  | [] => 0
  | operand :: operands => max operand.depth (deepest operands)

end

/-- The parts met one after the other on a way down from an expression: first
one of its direct operands, then one of that operand's, and so on. -/
inductive Descends : Expr → List Expr → Prop where
  | stop {expression : Expr} : Descends expression []
  | step {expression child : Expr} {below : List Expr}
      (isChild : child ∈ expression.children) (further : Descends child below) :
      Descends expression (child :: below)

theorem walkAll_eq_flatMap (operands : List Expr) :
    walkAll operands = operands.flatMap walk := by
  induction operands with
  | nil => rfl
  | cons head tail ih => simp [walkAll, ih]

/-- A walk visits an expression and then what its operands' walks visit. -/
theorem walk_eq_cons (expression : Expr) :
    expression.walk = expression :: expression.children.flatMap walk := by
  cases expression <;> simp [walk, children, walkAll_eq_flatMap]

/-- Induction on expressions along their direct operands. -/
@[elab_as_elim]
theorem inductionOnChildren {motive : Expr → Prop}
    (step : ∀ expression, (∀ child ∈ expression.children, motive child) →
      motive expression)
    (expression : Expr) : motive expression := by
  induction expression using recOn' with
  | filter body ih | negation body ih | group body ih | like _ _ body ih =>
      exact step _ (List.forall_mem_singleton.mpr ih)
  | disjunction operands ih | conjunction operands ih => exact step _ ih
  | comparison left _ right leftIH rightIH | between _ _ left right leftIH rightIH =>
      exact step _ (List.forall_mem_cons.mpr
        ⟨leftIH, List.forall_mem_singleton.mpr rightIH⟩)
  | member | isNull | field | literal => exact step _ nofun

/-- Any part but the outermost one is a direct operand of another part. -/
theorem eq_or_mem_children_of_mem_walk {expression part : Expr}
    (inside : part ∈ expression.walk) :
    part = expression ∨ ∃ parent ∈ expression.walk, part ∈ parent.children := by
  induction expression using inductionOnChildren with
  | step expression ih =>
      rw [walk_eq_cons] at inside ⊢
      rcases List.mem_cons.mp inside with same | below
      · exact .inl same
      · right
        obtain ⟨child, isChild, inChild⟩ := List.mem_flatMap.mp below
        rcases ih child isChild inChild with rfl | ⟨parent, inWalk, isOperand⟩
        · exact ⟨expression, List.mem_cons_self, isChild⟩
        · exact ⟨parent, List.mem_cons_of_mem _
            (List.mem_flatMap.mpr ⟨child, isChild, inWalk⟩), isOperand⟩

/-- The height is one more than the greatest height of an operand. -/
theorem depth_eq_deepest_children (expression : Expr) :
    expression.depth = deepest expression.children + 1 := by
  cases expression <;> simp [depth, children, deepest]

end Expr

end Criteria
