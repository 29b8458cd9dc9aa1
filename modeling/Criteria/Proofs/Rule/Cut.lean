import Criteria.Proofs.Rule.Orderly

/-!
# Runs cut short

With fewer levels allowed a rule runs as before until it opens the first level
that is no longer allowed, and there it ends.  `Run.IsCut` relates the two
runs: either no level of the longer run is excessive and the runs are the same,
or the shorter run ends at the first excessive level of the longer one.
-/

namespace Criteria

/-- What is left of a run when so many levels are allowed. -/
inductive Run.IsCut {α : Type} (allowance : Nat) (run cut : Run α) : Prop where
  /-- All levels of the run are allowed. -/
  | same (within : ∀ opening ∈ run.openings, opening.level ≤ allowance)
      (equal : cut = run)
  /-- The run ends as soon as it opens a level that is not allowed. -/
  | excess {early late : List Opening} {excess : Opening}
      (split : run.openings = early ++ excess :: late)
      (within : ∀ opening ∈ early, opening.level ≤ allowance)
      (beyond : allowance < excess.level)
      (ended : cut = ⟨.error .tooDeep, excess.tokens, early ++ [excess],
        excess.level⟩)

namespace Rule

variable {α β : Type} {allowance : Nat}

/-- With so many levels allowed, the first rule runs as the second one. -/
def Cuts (allowance : Nat) (rule shorter : Rule α) : Prop :=
  ∀ tokens, (rule tokens).IsCut allowance (shorter tokens)

/-- A run that succeeds has closed all levels. -/
def Closes (rule : Rule α) : Prop :=
  ∀ tokens value, (rule tokens).result = .ok value → (rule tokens).unclosed = 0

theorem Orderly.closes {rule : Rule α} (orderly : rule.Orderly allowance) :
    rule.Closes := fun tokens => (orderly tokens).closed

theorem OrderlyBehindOpener.closes {rule : Rule α}
    (orderly : rule.OrderlyBehindOpener allowance) : rule.Closes := fun tokens =>
  (orderly.behindParen tokens).closed

theorem Flat.cuts {rule : Rule α} (flat : rule.Flat) (allowance : Nat) :
    rule.Cuts allowance rule := fun tokens =>
  .same (by simp [(flat tokens).openings]) rfl

theorem cuts_bind {first shortFirst : Rule α} {next shortNext : α → Rule β}
    (closes : first.Closes) (cutsFirst : first.Cuts allowance shortFirst)
    (cutsNext : ∀ value, (next value).Cuts allowance (shortNext value)) :
    (first >>= next).Cuts allowance (shortFirst >>= shortNext) := by
  intro tokens
  cases cutsFirst tokens with
  -- The shorter run never comes to the next rule.
  | @excess early late excess split within beyond ended =>
      have failed : (shortFirst tokens).result = .error .tooDeep := by rw [ended]
      rw [bind_of_error shortNext failed, ended]
      cases outcome : (first tokens).result with
      | error fault =>
          rw [bind_of_error next outcome]
          exact .excess split within beyond rfl
      | ok value =>
          rw [bind_of_ok next outcome]
          have longer (later : List Opening) :
              (first tokens).openings ++ later =
                early ++ excess :: (late ++ later) := by
            rw [split, List.append_assoc, List.cons_append]
          exact .excess (longer _) within beyond rfl
  | same within equal =>
      cases outcome : (first tokens).result with
      | error fault =>
          have failed : (shortFirst tokens).result = .error fault := by
            rw [equal, outcome]
          rw [bind_of_error next outcome, bind_of_error shortNext failed, equal]
          exact .same within rfl
      | ok value =>
          have succeeded : (shortFirst tokens).result = .ok value := by
            rw [equal, outcome]
          have closed := closes tokens value outcome
          rw [bind_of_ok next outcome, bind_of_ok shortNext succeeded, equal,
            closed]
          cases cutsNext value (first tokens).rest with
          | same nextWithin nextEqual =>
              rw [nextEqual]
              refine .same ?_ rfl
              intro opening member
              rcases List.mem_append.mp member with early | late
              · exact within opening early
              · exact nextWithin opening late
          | @excess early late excess split nextWithin beyond ended =>
              rw [ended]
              have longer : (first tokens).openings ++
                  (next value (first tokens).rest).openings =
                    ((first tokens).openings ++ early) ++ excess :: late := by
                rw [split, List.append_assoc]
              refine .excess longer ?_ beyond ?_
              · intro opening member
                rcases List.mem_append.mp member with before | later
                · exact within opening before
                · exact nextWithin opening later
              · simp

theorem cuts_sepByUpTo {separator : Kind} {item shortItem : Rule α} {levels : Nat}
    (isItem : item.Orderly levels) (cuts : item.Cuts allowance shortItem)
    (bound : Nat) :
    (sepByUpTo separator item bound).Cuts allowance
      (sepByUpTo separator shortItem bound) := by
  induction bound with
  | zero =>
      exact cuts_bind isItem.closes cuts fun last =>
        (flat_pure [last]).cuts allowance
  | succ bound ih =>
      apply cuts_bind isItem.closes cuts
      intro first
      have isOptional := flat_optional separator
      apply cuts_bind (isOptional.orderly levels).closes (isOptional.cuts allowance)
      intro found
      split
      · exact cuts_bind (orderly_sepByUpTo isItem bound).closes ih fun others =>
          (flat_pure (first :: others)).cuts allowance
      · exact (flat_pure [first]).cuts allowance

theorem cuts_sepBy {separator : Kind} {item shortItem : Rule α} {levels : Nat}
    (isItem : item.Orderly levels) (cuts : item.Cuts allowance shortItem) :
    (sepBy separator item).Cuts allowance (sepBy separator shortItem) :=
  fun tokens => cuts_sepByUpTo isItem cuts tokens.length tokens

/-- The level itself is the first that is opened, and all others are one level
deeper than without it. -/
theorem cuts_deepen {rule shorter : Rule α} (cuts : rule.Cuts allowance shorter) :
    (deepen rule).Cuts (allowance + 1) (deepen shorter) := by
  intro tokens
  have within_raise {openings : List Opening}
      (within : ∀ opening ∈ openings, opening.level ≤ allowance) :
      ∀ opening ∈ (⟨1, tokens⟩ : Opening) :: openings.map Opening.raise,
        opening.level ≤ allowance + 1 := by
    intro opening member
    rcases List.mem_cons.mp member with rfl | deeper
    · exact Nat.le_add_left 1 allowance
    · obtain ⟨inner, isInner, rfl⟩ := List.mem_map.mp deeper
      exact Nat.succ_le_succ (within inner isInner)
  cases cuts tokens with
  | same within equal =>
      refine .same (within_raise within) ?_
      simp [deepen, equal]
  | @excess early late excess split within beyond ended =>
      have longer : (deepen rule tokens).openings =
          ⟨1, tokens⟩ :: early.map Opening.raise ++
            excess.raise :: late.map Opening.raise := by
        simp [deepen, split]
      refine .excess longer (within_raise within) (Nat.succ_lt_succ beyond) ?_
      simp [deepen, ended, Opening.raise]

/-- Without any level allowed a rule ends where it opens its own. -/
theorem cuts_tooDeep (rule : Rule α) : (deepen rule).Cuts 0 tooDeep := by
  intro tokens
  have longer : (deepen rule tokens).openings =
      [] ++ (⟨1, tokens⟩ : Opening) :: (rule tokens).openings.map Opening.raise :=
    rfl
  exact .excess longer (by simp) Nat.one_pos rfl

theorem cuts_primary (dispatch : Dispatch) {inner shortInner : Rule Expr}
    {levels : Nat} (isInner : inner.OrderlyBehindOpener levels)
    (cuts : inner.Cuts allowance shortInner) :
    (primary dispatch inner).Cuts allowance (primary dispatch shortInner) := by
  intro tokens
  by_cases group : Token.headKind tokens = .openParen ∧
      dispatch.opensGroup tokens
  · obtain ⟨isOpening, opens⟩ := group
    cases tokens with
    | nil => cases isOpening
    | cons opening others =>
        rw [primary_of_group isOpening opens, primary_of_group isOpening opens]
        apply cuts_bind isInner.closes cuts
        intro body
        have isClosing := flat_expect .closeParen
        exact cuts_bind (isClosing.orderly levels).closes
          (isClosing.cuts allowance) fun _ => (flat_pure _).cuts allowance
  · have noGroup : Token.headKind tokens = .openParen →
        dispatch.opensGroup tokens = false := by
      intro isOpening
      simpa [isOpening] using group
    rw [primary_of_predicate noGroup, primary_of_predicate noGroup]
    exact (flat_predicate dispatch).cuts allowance tokens

theorem cuts_factor {negated shortNegated plain shortPlain : Rule Expr}
    (cutsNegated : negated.Cuts allowance shortNegated)
    (cutsPlain : plain.Cuts allowance shortPlain) :
    (factor negated plain).Cuts allowance (factor shortNegated shortPlain) := by
  intro tokens
  by_cases isNot : Token.headKind tokens = .notWord
  · cases tokens with
    | nil => cases isNot
    | cons notToken others =>
        rw [factor_of_not isNot, factor_of_not isNot]
        exact cutsNegated others
  · rw [factor_of_other isNot, factor_of_other isNot]
    exact cutsPlain tokens

theorem cuts_conjunction {item shortItem : Rule Expr} {levels : Nat}
    (isItem : item.Orderly levels) (cuts : item.Cuts allowance shortItem) :
    (conjunction item).Cuts allowance (conjunction shortItem) :=
  cuts_bind (orderly_sepBy isItem).closes (cuts_sepBy isItem cuts) fun _ =>
    (flat_pure _).cuts allowance

theorem cuts_disjunction {item shortItem : Rule Expr} {levels : Nat}
    (isItem : item.Orderly levels) (cuts : item.Cuts allowance shortItem) :
    (disjunction item).Cuts allowance (disjunction shortItem) :=
  cuts_bind (orderly_sepBy isItem).closes (cuts_sepBy isItem cuts) fun _ =>
    (flat_pure _).cuts allowance

theorem cuts_expression_and_negation (dispatch : Dispatch)
    {smaller larger : Nat} (fewer : smaller ≤ larger) :
    (expression dispatch larger).Cuts smaller (expression dispatch smaller) ∧
      (negation dispatch larger).Cuts smaller (negation dispatch smaller) := by
  induction smaller generalizing larger with
  | zero =>
      cases larger with
      | zero => exact ⟨cuts_tooDeep _, cuts_tooDeep _⟩
      | succ larger => exact ⟨cuts_tooDeep _, cuts_tooDeep _⟩
  | succ smaller ih =>
      cases larger with
      | zero => exact (Nat.not_succ_le_zero _ fewer).elim
      | succ larger =>
          obtain ⟨cutsExpression, cutsNegation⟩ := ih (Nat.le_of_succ_le_succ fewer)
          obtain ⟨isExpression, isNegation⟩ :=
            orderly_expression_and_negation dispatch larger
          have isPrimary := orderly_primary dispatch isExpression
          have cutsPrimary := cuts_primary dispatch isExpression cutsExpression
          constructor
          · have isFactor := orderly_factor isNegation isPrimary
            have cutsFactor := cuts_factor cutsNegation cutsPrimary
            exact cuts_deepen (cuts_disjunction (orderly_conjunction isFactor)
              (cuts_conjunction isFactor cutsFactor))
          · exact cuts_deepen (cuts_bind isPrimary.closes cutsPrimary fun _ =>
              (flat_pure _).cuts smaller)

theorem cuts_filter (dispatch : Dispatch) {smaller larger : Nat}
    (fewer : smaller ≤ larger) :
    (filter dispatch larger).Cuts smaller (filter dispatch smaller) := by
  have isBody := (orderly_expression_and_negation dispatch larger).1
  apply cuts_bind isBody.closes (cuts_expression_and_negation dispatch fewer).1
  intro body
  exact cuts_bind (flat_finish.orderly larger).closes (flat_finish.cuts smaller)
    fun _ => (flat_pure _).cuts smaller

end Rule

end Criteria
