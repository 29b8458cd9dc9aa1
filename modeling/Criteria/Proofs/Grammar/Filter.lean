import Criteria.Proofs.Grammar.Complete
import Criteria.Proofs.Rule.Depth

/-!
# Complete conditions

The rule for complete conditions reads exactly what the grammar derives and
what fits into the allowed levels.  Without a limit every derivation fits, and
the deepest level that is opened is the nesting of the tree and one for the
condition as a whole.
-/

namespace Criteria

open Grammar

namespace Rule

variable {dispatch : Dispatch} {tokens : List Token} {tree : Expr}

theorem result_filter_iff (regular : dispatch.Regular)
    (lexical : AreLexical tokens) {allowance : Nat} :
    (filter dispatch allowance tokens).result = .ok tree ↔
      ∃ body, tree = .filter body ∧ IsCondition tokens body ∧
        body.nesting < allowance := by
  constructor
  · intro succeeded
    have reads : (filter dispatch allowance).Reads tokens tree _ :=
      ⟨succeeded, rfl⟩
    unfold filter at reads
    simp only [reads_bind, reads_finish, reads_pure] at reads
    obtain ⟨body, _, readsBody, _, _, ⟨rfl, _⟩, same, _⟩ := reads
    obtain ⟨used, split, isCondition, fits⟩ :=
      sound_expression regular allowance _ _ _ readsBody
    rw [List.append_nil] at split
    rw [← split] at isCondition
    exact ⟨body, same, isCondition, fits⟩
  · intro derived
    obtain ⟨body, rfl, isCondition, fits⟩ := derived
    have atEnd : Token.headKind [] ∈ followsCondition := List.mem_cons_self
    have readsBody := isCondition.reads regular fits lexical atEnd
    rw [List.append_nil] at readsBody
    have reads : (filter dispatch allowance).Reads tokens (.filter body) [] := by
      unfold filter
      simp only [reads_bind, reads_finish, reads_pure]
      exact ⟨body, [], readsBody, (), [], ⟨rfl, rfl⟩, rfl, rfl⟩
    exact reads.1

/-- Whatever the grammar derives fits into one level more than there are
tokens. -/
theorem nesting_le_length (regular : dispatch.Regular)
    (lexical : AreLexical tokens) {body : Expr}
    (isCondition : IsCondition tokens body) :
    body.nesting ≤ tokens.length := by
  let plenty := max (body.nesting + 1) (tokens.length + 1)
  have fits : body.nesting < plenty := Nat.le_max_left _ _
  have succeeded := (result_filter_iff regular lexical).mpr
    ⟨body, rfl, isCondition, fits⟩
  -- The levels beyond the number of tokens are not what made it succeed.
  rw [filter_of_length_le (Nat.le_max_right _ _)] at succeeded
  obtain ⟨same, equal, _, within⟩ :=
    (result_filter_iff regular lexical).mp succeeded
  cases equal
  exact Nat.le_of_lt_succ within

/-- The grammar is unambiguous on lexemes. -/
theorem isCondition_unique (lexical : AreLexical tokens) {first second : Expr}
    (isFirst : IsCondition tokens first) (isSecond : IsCondition tokens second) :
    first = second := by
  let plenty := max first.nesting second.nesting + 1
  have regular := Dispatch.regular_standard
  have readsFirst :
      (filter .standard plenty tokens).result = .ok (.filter first) :=
    (result_filter_iff regular lexical).mpr
      ⟨first, rfl, isFirst, Nat.lt_succ_of_le (Nat.le_max_left _ _)⟩
  have readsSecond :
      (filter .standard plenty tokens).result = .ok (.filter second) :=
    (result_filter_iff regular lexical).mpr
      ⟨second, rfl, isSecond, Nat.lt_succ_of_le (Nat.le_max_right _ _)⟩
  rw [readsFirst] at readsSecond
  cases readsSecond
  rfl

/-- The deepest level of a reading without a limit follows from its tree. -/
theorem height_of_result (regular : dispatch.Regular)
    (lexical : AreLexical tokens)
    (succeeded : (filter dispatch (tokens.length + 1) tokens).result = .ok tree) :
    (filter dispatch (tokens.length + 1) tokens).height = tree.nesting + 1 := by
  obtain ⟨body, rfl, isCondition, _⟩ :=
    (result_filter_iff regular lexical).mp succeeded
  apply Nat.le_antisymm
  · -- Cutting the reading at the nesting of its tree would leave it no tree.
    apply Nat.le_of_not_gt
    intro deeper
    obtain ⟨_, _, _, failed, _⟩ := filter_of_lt_height deeper
    have enough := (result_filter_iff regular lexical).mpr
      ⟨body, rfl, isCondition, Nat.lt_succ_self _⟩
    rw [Expr.nesting, enough] at failed
    cases failed
  · have cut := filter_of_height_le (Nat.le_refl
      (filter dispatch (tokens.length + 1) tokens).height)
    rw [← cut] at succeeded
    obtain ⟨same, equal, _, fits⟩ :=
      (result_filter_iff regular lexical).mp succeeded
    cases equal
    exact fits

end Rule

end Criteria
