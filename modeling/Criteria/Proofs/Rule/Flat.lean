import Criteria.Proofs.Rule.Reads
import Criteria.Rule.Predicate

/-!
# Rules without nesting

A flat rule consumes tokens from the front, opens no level and never finds the
input too deep.  The rules for predicates and all their parts are flat.
-/

namespace Criteria

/-- The run of a flat rule on the tokens. -/
structure Run.Flat {α : Type} (tokens : List Token) (run : Run α) : Prop where
  suffix : run.rest <:+ tokens
  openings : run.openings = []
  unclosed : run.unclosed = 0
  notTooDeep : run.result ≠ .error .tooDeep

theorem Run.flat_ok {α : Type} {tokens rest : List Token} (value : α)
    (suffix : rest <:+ tokens) : Run.Flat tokens ⟨.ok value, rest, [], 0⟩ := by
  refine ⟨suffix, rfl, rfl, ?_⟩
  intro same
  cases same

theorem Run.flat_expected {α : Type} (tokens : List Token) (what : Expectation) :
    Run.Flat tokens (⟨.error (.expected what), tokens, [], 0⟩ : Run α) := by
  refine ⟨List.suffix_rfl, rfl, rfl, ?_⟩
  intro same
  cases same

namespace Rule

variable {α β : Type}

/-- Every run of the rule is flat. -/
def Flat (rule : Rule α) : Prop :=
  ∀ tokens, (rule tokens).Flat tokens

theorem flat_pure (value : α) : (pure value : Rule α).Flat := fun _ =>
  Run.flat_ok value List.suffix_rfl

theorem flat_ask (question : List Token → α) : (ask question).Flat := fun tokens =>
  Run.flat_ok (question tokens) List.suffix_rfl

theorem flat_upcoming : upcoming.Flat :=
  flat_ask Token.headKind

theorem flat_fail (what : Expectation) :
    (fail (.expected what) : Rule α).Flat := fun tokens =>
  Run.flat_expected tokens what

theorem flat_expect (kind : Kind) : (expect kind).Flat := by
  intro tokens
  cases tokens with
  | nil => exact Run.flat_expected [] _
  | cons first others =>
      simp only [expect]
      split
      · exact Run.flat_ok first (List.suffix_cons _ _)
      · exact Run.flat_expected (first :: others) _

theorem flat_optional (kind : Kind) : (optional kind).Flat := by
  intro tokens
  cases tokens with
  | nil => exact Run.flat_ok false List.suffix_rfl
  | cons first others =>
      simp only [optional]
      split
      · exact Run.flat_ok true (List.suffix_cons _ _)
      · exact Run.flat_ok false List.suffix_rfl

theorem flat_finish : finish.Flat := by
  intro tokens
  cases tokens with
  | nil => exact Run.flat_ok () List.suffix_rfl
  | cons first others => exact Run.flat_expected (first :: others) _

theorem flat_literal : literal.Flat := by
  intro tokens
  cases tokens with
  | nil => exact Run.flat_expected [] _
  | cons first others =>
      simp only [literal]
      split
      · rename_i value _
        exact Run.flat_ok value (List.suffix_cons _ _)
      · exact Run.flat_expected (first :: others) _

theorem flat_bind {first : Rule α} {next : α → Rule β} (isFirst : first.Flat)
    (isNext : ∀ value, (next value).Flat) : (first >>= next).Flat := by
  intro tokens
  have firstRun := isFirst tokens
  cases outcome : (first tokens).result with
  | error fault =>
      rw [bind_of_error next outcome]
      refine ⟨firstRun.suffix, firstRun.openings, firstRun.unclosed, ?_⟩
      intro same
      cases same
      exact firstRun.notTooDeep outcome
  | ok value =>
      have nextRun := isNext value (first tokens).rest
      rw [bind_of_ok next outcome]
      exact ⟨nextRun.suffix.trans firstRun.suffix,
        by simp [firstRun.openings, nextRun.openings],
        by simp [firstRun.unclosed, nextRun.unclosed], nextRun.notTooDeep⟩

theorem flat_sepBy {separator : Kind} {item : Rule α} (isItem : item.Flat) :
    (sepBy separator item).Flat := by
  have bounded : ∀ bound, (sepByUpTo separator item bound).Flat := by
    intro bound
    induction bound with
    | zero => exact flat_bind isItem fun last => flat_pure [last]
    | succ bound ih =>
        apply flat_bind isItem
        intro first
        apply flat_bind (flat_optional separator)
        intro found
        split
        · exact flat_bind ih fun others => flat_pure (first :: others)
        · exact flat_pure [first]
  intro tokens
  exact bounded tokens.length tokens

theorem flat_field : field.Flat :=
  flat_bind (flat_expect _) fun _ => flat_pure _

theorem flat_operand : operand.Flat := by
  apply flat_bind flat_upcoming
  intro kind
  split
  · exact flat_bind flat_field fun _ => flat_pure _
  · exact flat_bind flat_literal fun _ => flat_pure _

theorem flat_pattern : pattern.Flat := by
  apply flat_bind flat_upcoming
  intro kind
  split
  · exact flat_bind flat_field fun _ => flat_pure _
  · exact flat_bind (flat_expect _) fun _ => flat_pure _
  · exact flat_fail _

theorem flat_relOp : relOp.Flat := by
  apply flat_bind flat_upcoming
  intro kind
  split
  · exact flat_bind (flat_expect _) fun _ => flat_pure _
  · apply flat_bind (flat_expect _)
    intro _
    apply flat_bind (flat_optional _)
    intro found
    split
    · exact flat_pure _
    · apply flat_bind (flat_optional _)
      intro found
      split
      · exact flat_pure _
      · exact flat_pure _
  · apply flat_bind (flat_expect _)
    intro _
    apply flat_bind (flat_optional _)
    intro found
    split
    · exact flat_pure _
    · exact flat_pure _
  · exact flat_bind (flat_expect _) fun _ =>
      flat_bind (flat_expect _) fun _ => flat_pure _
  · exact flat_fail _

theorem flat_comparison : comparison.Flat :=
  flat_bind flat_operand fun _ => flat_bind flat_relOp fun _ =>
    flat_bind flat_operand fun _ => flat_pure _

theorem flat_between : between.Flat :=
  flat_bind flat_field fun _ => flat_bind (flat_optional _) fun _ =>
    flat_bind (flat_expect _) fun _ => flat_bind flat_operand fun _ =>
      flat_bind (flat_expect _) fun _ => flat_bind flat_operand fun _ =>
        flat_pure _

theorem flat_like : like.Flat :=
  flat_bind flat_field fun _ => flat_bind (flat_optional _) fun _ =>
    flat_bind (flat_expect _) fun _ => flat_bind flat_pattern fun _ =>
      flat_pure _

theorem flat_member : member.Flat :=
  flat_bind flat_field fun _ => flat_bind (flat_optional _) fun _ =>
    flat_bind (flat_expect _) fun _ => flat_bind (flat_expect _) fun _ =>
      flat_bind (flat_sepBy flat_literal) fun _ =>
        flat_bind (flat_expect _) fun _ => flat_pure _

theorem flat_isNull : isNull.Flat :=
  flat_bind flat_field fun _ => flat_bind (flat_expect _) fun _ =>
    flat_bind (flat_optional _) fun _ => flat_bind (flat_expect _) fun _ =>
      flat_pure _

theorem flat_predicate (dispatch : Dispatch) : (predicate dispatch).Flat := by
  apply flat_bind (flat_ask _)
  intro form
  cases form with
  | between => exact flat_between
  | like => exact flat_like
  | member => exact flat_member
  | isNull => exact flat_isNull
  | comparison => exact flat_comparison

end Rule

end Criteria
