import Criteria.Parse
import Criteria.Proofs.Parse.Depth

/-!
# The language that is read

The inputs that are read within a limit are those whose tokens the grammar
derives, if the denoted tree does not nest too deeply.  Nothing else is
accepted, and nothing of it is refused.  As the tokens denote one tree at most,
the limit decides whether a tree is read, and never which one.
-/

namespace Criteria

open Grammar

theorem Limit.lt_allowance_iff {limit : Limit} {tokenCount nesting : Nat}
    (bounded : nesting ≤ tokenCount) :
    nesting < limit.allowance tokenCount ↔ limit.allows (nesting + 1) := by
  cases limit with
  | levels count =>
      simp only [allowance, allows, decide_eq_true_eq]
      exact Nat.lt_iff_add_one_le
  | unbounded => simp [allowance, allows, Nat.lt_succ_of_le bounded]

/-- A fresh reading comes to a tree if the grammar derives it from the tokens
and the limit allows its nesting, in whichever regular way it looks ahead. -/
theorem result_reading_iff_of_regular {dispatch : Dispatch}
    (regular : dispatch.Regular) {limit : Limit} {expression : String}
    {tree : Expr} :
    ((Session.ofText expression limit).reading dispatch).result = .ok tree ↔
      ∃ body, tree = .filter body ∧ IsCondition (tokenize expression) body ∧
        limit.allows (tree.nesting + 1) := by
  have lexical := areLexical_tokenize expression
  rw [Session.reading_ofText, Rule.result_filter_iff regular lexical]
  constructor
  · intro derived
    obtain ⟨body, rfl, isCondition, fits⟩ := derived
    have bounded := Rule.nesting_le_length regular lexical isCondition
    exact ⟨body, rfl, isCondition, (Limit.lt_allowance_iff bounded).mp fits⟩
  · intro derived
    obtain ⟨body, rfl, isCondition, allowed⟩ := derived
    have bounded := Rule.nesting_le_length regular lexical isCondition
    exact ⟨body, rfl, isCondition, (Limit.lt_allowance_iff bounded).mpr allowed⟩

theorem result_reading_iff {limit : Limit} {expression : String} {tree : Expr} :
    ((Session.ofText expression limit).reading .standard).result = .ok tree ↔
      ∃ body, tree = .filter body ∧ IsCondition (tokenize expression) body ∧
        limit.allows (tree.nesting + 1) :=
  result_reading_iff_of_regular Dispatch.regular_standard

/-- What is read within a limit is denoted by the tokens. -/
theorem isCondition_of_parse {limit : Limit} {expression : String} {tree : Expr}
    (parsed : parseWithin limit expression = .ok tree) :
    ∃ body, tree = .filter body ∧ IsCondition (tokenize expression) body := by
  have succeeded := Session.parse_eq_ok_iff.mp parsed
  obtain ⟨body, isFilter, isCondition, _⟩ := result_reading_iff.mp succeeded
  exact ⟨body, isFilter, isCondition⟩

/-- When the tokens denote a tree, no other tree is read, and this one is read
within the limits that allow its nesting. -/
theorem parse_iff_of_isCondition {limit : Limit} {expression : String}
    {body tree : Expr} (isCondition : IsCondition (tokenize expression) body) :
    parseWithin limit expression = .ok tree ↔
      tree = .filter body ∧ limit.allows (body.nesting + 1) := by
  constructor
  · intro parsed
    have succeeded := Session.parse_eq_ok_iff.mp parsed
    obtain ⟨found, rfl, isFound, allowed⟩ := result_reading_iff.mp succeeded
    have same : found = body := Rule.isCondition_unique
      (areLexical_tokenize expression) isFound isCondition
    rw [Expr.nesting, same] at allowed
    exact ⟨congrArg Expr.filter same, allowed⟩
  · rintro ⟨rfl, allowed⟩
    apply Session.parse_eq_ok_iff.mpr
    apply result_reading_iff.mpr
    refine ⟨body, rfl, isCondition, ?_⟩
    rw [Expr.nesting]
    exact allowed

/-- When the tokens denote a tree, a limit that does not allow its nesting
refuses them as too deep. -/
theorem parse_tooDeep_of_isCondition {limit : Limit} {expression : String}
    {body : Expr} (isCondition : IsCondition (tokenize expression) body)
    (excessive : limit.allows (body.nesting + 1) = false) :
    ∃ diagnostic, parseWithin limit expression = .error diagnostic ∧
      diagnostic.SaysTooDeep limit expression := by
  have free : parseWithin .unbounded expression = .ok (.filter body) :=
    (parse_iff_of_isCondition isCondition).mpr ⟨rfl, rfl⟩
  have depth := Rule.height_of_result Dispatch.regular_standard
    (areLexical_tokenize expression) (Session.parse_eq_ok_iff.mp free)
  rw [Expr.nesting] at depth
  rw [← depth] at excessive
  obtain ⟨_, _, _, _, _, failed, _⟩ := Session.reading_of_not_allows excessive
  obtain ⟨diagnostic, answer, tooDeep, _⟩ := Session.parse_of_tooDeep failed
  exact ⟨diagnostic, answer, tooDeep⟩

/-- Reading within a limit accepts exactly the sentences of the grammar whose
tree the limit allows, and it gives the tree that is denoted. -/
theorem parseWithin_eq_ok_iff (limit : Limit) (expression : String)
    (tree : Expr) :
    parseWithin limit expression = .ok tree ↔
      ∃ body, tree = .filter body ∧ IsCondition (tokenize expression) body ∧
        limit.allows (tree.nesting + 1) :=
  Session.parse_eq_ok_iff.trans result_reading_iff

end Criteria
