import Criteria.Proofs.Expr.Depth
import Criteria.Proofs.Parse.RoundTrip
import Criteria.Proofs.Token.Lossless
import Criteria.Proofs.Walk.Precaution

/-!
# How high a tree may be

The limit on nesting bounds the height of every tree that is read, however long
the input is, and so it bounds whatever goes down the tree.
-/

namespace Criteria

open Grammar

theorem length_tokenize_le (input : String) :
    (tokenize input).length ≤ input.length := by
  obtain ⟨lead, gaps, laidOut⟩ := laidOut_scan 0 input.toList
  have fewer := laidOut.length_le
  rwa [String.length_toList] at fewer

variable {limit : Limit} {expression : String} {tree : Expr}

/-- The deepest level of a reading that comes to a tree is within the limit as a
number, if the input is shorter than the number that stands for no limit. -/
theorem nesting_lt_toNat (allowed : limit.allows (tree.nesting + 1))
    (bounded : tree.nesting ≤ expression.length)
    (short : limit = .unbounded → expression.length < Limit.maximum) :
    tree.nesting < limit.toNat := by
  cases limit with
  | levels count => exact of_decide_eq_true allowed
  | unbounded => exact Nat.lt_of_le_of_lt bounded (short rfl)

/-- Let a reading come to a tree.  The tree is higher than the deepest level that
was opened, and each level adds at most three to the two that the root and an
innermost operand have.  With a limit on the levels, no way down the tree is
longer than three times the limit and two, whatever the input is; without one
the largest number takes the place of the limit, which no input comes near. -/
theorem depth_of_parse (parsed : parseWithin limit expression = .ok tree) :
    let seen := (Session.ofText expression limit).parse.2.deepest
    limit.allows seen ∧ seen + 1 ≤ tree.depth ∧ tree.depth ≤ 3 * seen + 2 ∧
      ((limit = .unbounded → expression.length < Limit.maximum) →
        seen ≤ limit.toNat ∧ tree.depth ≤ 3 * limit.toNat + 2 ∧
          ∀ below, tree.Descends below → below.length + 1 ≤ 3 * limit.toNat + 2) := by
  intro seen
  have lexical := areLexical_tokenize expression
  have succeeded := Session.parse_eq_ok_iff.mp parsed
  obtain ⟨body, rfl, isCondition, allowed⟩ := result_reading_iff.mp succeeded
  have seenIsNesting : seen = (Expr.filter body).nesting + 1 :=
    (Session.deepest_parse _).trans
      (Rule.height_of_result_within Dispatch.regular_standard lexical succeeded)
  have shaped := (isCondition.fitsGroup lexical).wellShaped
  have upper := shaped.depth_le
  have lower := body.nesting_lt_depth
  have flat := body.flatHeight_le_four
  have nesting : (Expr.filter body).nesting = body.nesting := rfl
  have depth : (Expr.filter body).depth = body.depth + 1 := rfl
  rw [← seenIsNesting] at allowed
  refine ⟨allowed, by omega, by omega, ?_⟩
  intro short
  have bounded : body.nesting ≤ expression.length :=
    Nat.le_trans
      (Rule.nesting_le_length Dispatch.regular_standard lexical isCondition)
      (length_tokenize_le expression)
  rw [seenIsNesting] at allowed
  have fits := nesting_lt_toNat allowed bounded short
  refine ⟨by omega, by omega, ?_⟩
  intro below descends
  have within := descends.length_lt
  omega

/-- A single level reaches the bound with a conjunction in a disjunction. -/
theorem depth_of_parse_of_conjunction :
    let compare (name raw : String) : Expr :=
      .comparison (.field ⟨name⟩) .eq (.literal ⟨.numeric, raw⟩)
    let tree := Expr.filter (.disjunction
      [.conjunction [compare "a" "1", compare "b" "2"], compare "c" "3"])
    parseWithin (.levels 1) "a = 1 AND b = 2 OR c = 3" = .ok tree ∧
      tree.depth = 3 * 1 + 2 ∧
      ∀ below, tree.Descends below → below.length + 1 ≤ 3 * 1 + 2 := by
  intro compare tree
  have parsed : parseWithin (.levels 1) "a = 1 AND b = 2 OR c = 3" = .ok tree := by
    apply eq_ok_of_toOption
    decide +kernel
  obtain ⟨-, -, -, within⟩ := depth_of_parse parsed
  exact ⟨parsed, by decide +kernel, (within nofun).2.2⟩

end Criteria
