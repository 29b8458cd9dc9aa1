import Criteria.Proofs.Rule.Expression
import Criteria.Proofs.Rule.Flat

/-!
# Where levels are opened

The invariant of a run with a number of levels allowed: which tokens it leaves,
where it opened levels and in which order, that it closed them when it
succeeded, and that it went one level beyond the allowance exactly when it
found the input too deep.  Every level lies behind a token that opens it, and
it is no higher than the number of tokens up to that one.
-/

namespace Criteria

/-- The kinds of the tokens behind which a level is opened. -/
def isOpener (kind : Kind) : Bool :=
  kind = .openParen || kind = .notWord

/-- The level was opened directly behind an opener of the tokens, and as many
tokens come before as there are levels around. -/
def Opening.IsBehindOpener (tokens : List Token) (opening : Opening) : Prop :=
  ∃ before opener, tokens = before ++ opener :: opening.tokens ∧
    isOpener opener.kind ∧ opening.level ≤ before.length + 1

/-- The invariant of a run on the tokens that stand at the end of the whole
input of an enclosing rule. -/
structure Run.Orderly {α : Type} (allowance : Nat) (whole tokens : List Token)
    (run : Run α) : Prop where
  inside : tokens <:+ whole
  suffix : run.rest <:+ tokens
  between : ∀ opening ∈ run.openings,
    opening.tokens <:+ tokens ∧ run.rest <:+ opening.tokens
  ordered : run.openings.Pairwise fun first second =>
    second.tokens.length ≤ first.tokens.length
  behind : ∀ opening ∈ run.openings, opening.IsBehindOpener whole
  bounded : ∀ opening ∈ run.openings, opening.level ≤ allowance + 1
  tooDeep : run.result = .error .tooDeep →
    ∃ opening ∈ run.openings, opening.level = allowance + 1
  closed : ∀ value, run.result = .ok value → run.unclosed = 0

theorem Run.Flat.orderly {α : Type} {tokens whole : List Token} {run : Run α}
    (flat : run.Flat tokens) (inside : tokens <:+ whole) (allowance : Nat) :
    run.Orderly allowance whole tokens where
  inside := inside
  suffix := flat.suffix
  between := by simp [flat.openings]
  ordered := by simp [flat.openings]
  behind := by simp [flat.openings]
  bounded := by simp [flat.openings]
  tooDeep := fun same => (flat.notTooDeep same).elim
  closed := fun _ _ => flat.unclosed

theorem Run.Orderly.widen {α : Type} {allowance : Nat} {first : Token}
    {tokens : List Token} {run : Run α}
    (orderly : run.Orderly allowance (first :: tokens) tokens) :
    run.Orderly allowance (first :: tokens) (first :: tokens) :=
  { orderly with
    inside := List.suffix_rfl
    suffix := orderly.suffix.trans (List.suffix_cons _ _)
    between := by
      intro opening member
      obtain ⟨within, ahead⟩ := orderly.between opening member
      exact ⟨within.trans (List.suffix_cons _ _), ahead⟩ }

theorem Opening.IsBehindOpener.extend {tokens whole : List Token}
    {opening : Opening} (behind : opening.IsBehindOpener tokens)
    (inside : tokens <:+ whole) : opening.IsBehindOpener whole := by
  obtain ⟨before, opener, rfl, isOpening, level⟩ := behind
  obtain ⟨front, rfl⟩ := inside
  refine ⟨front ++ before, opener, by simp, isOpening, ?_⟩
  simp only [List.length_append]
  omega

/-- One level further out there is one token more in front. -/
theorem Opening.IsBehindOpener.raise {tokens : List Token} {opening : Opening}
    (behind : opening.IsBehindOpener tokens) (first : Token) :
    opening.raise.IsBehindOpener (first :: tokens) := by
  obtain ⟨before, opener, rfl, isOpening, level⟩ := behind
  refine ⟨first :: before, opener, rfl, isOpening, ?_⟩
  simp only [Opening.raise, List.length_cons]
  omega

namespace Rule

variable {α β : Type} {allowance : Nat}

/-- Every run of the rule has the invariant. -/
def Orderly (allowance : Nat) (rule : Rule α) : Prop :=
  ∀ tokens, (rule tokens).Orderly allowance tokens tokens

/-- Every run of the rule has the invariant when an opener stands in front. -/
def OrderlyBehindOpener (allowance : Nat) (rule : Rule α) : Prop :=
  ∀ opener tokens, isOpener opener.kind →
    (rule tokens).Orderly allowance (opener :: tokens) tokens

theorem Flat.orderly {rule : Rule α} (flat : rule.Flat) (allowance : Nat) :
    rule.Orderly allowance := fun tokens =>
  (flat tokens).orderly List.suffix_rfl allowance

theorem orderly_bind_run {first : Rule α} {next : α → Rule β}
    {whole tokens : List Token}
    (isFirst : (first tokens).Orderly allowance whole tokens)
    (isNext : ∀ value, (next value).Orderly allowance) :
    ((first >>= next) tokens).Orderly allowance whole tokens := by
  cases outcome : (first tokens).result with
  | error fault =>
      rw [bind_of_error next outcome]
      refine ⟨isFirst.inside, isFirst.suffix, isFirst.between, isFirst.ordered,
        isFirst.behind, isFirst.bounded, ?_, ?_⟩
      · intro same
        cases same
        exact isFirst.tooDeep outcome
      · intro value same
        cases same
  | ok value =>
      have nextRun := isNext value (first tokens).rest
      rw [bind_of_ok next outcome]
      constructor
      · exact isFirst.inside
      · exact nextRun.suffix.trans isFirst.suffix
      · intro opening member
        rcases List.mem_append.mp member with early | late
        · obtain ⟨within, ahead⟩ := isFirst.between opening early
          exact ⟨within, nextRun.suffix.trans ahead⟩
        · obtain ⟨within, ahead⟩ := nextRun.between opening late
          exact ⟨within.trans isFirst.suffix, ahead⟩
      · apply List.pairwise_append.mpr
        refine ⟨isFirst.ordered, nextRun.ordered, ?_⟩
        intro early isEarly late isLate
        have within := (nextRun.between late isLate).1
        have ahead := (isFirst.between early isEarly).2
        exact (within.trans ahead).length_le
      · intro opening member
        rcases List.mem_append.mp member with early | late
        · exact isFirst.behind opening early
        · exact (nextRun.behind opening late).extend
            (isFirst.suffix.trans isFirst.inside)
      · intro opening member
        rcases List.mem_append.mp member with early | late
        · exact isFirst.bounded opening early
        · exact nextRun.bounded opening late
      · intro same
        obtain ⟨opening, member, level⟩ := nextRun.tooDeep same
        exact ⟨opening, List.mem_append_right _ member, level⟩
      · intro value same
        have firstClosed := isFirst.closed _ outcome
        have nextClosed := nextRun.closed value same
        simp [firstClosed, nextClosed]

theorem orderly_bind {first : Rule α} {next : α → Rule β}
    (isFirst : first.Orderly allowance)
    (isNext : ∀ value, (next value).Orderly allowance) :
    (first >>= next).Orderly allowance := fun tokens =>
  orderly_bind_run (isFirst tokens) isNext

theorem orderly_sepByUpTo {separator : Kind} {item : Rule α}
    (isItem : item.Orderly allowance) (bound : Nat) :
    (sepByUpTo separator item bound).Orderly allowance := by
  induction bound with
  | zero =>
      exact orderly_bind isItem fun last => (flat_pure [last]).orderly allowance
  | succ bound ih =>
      apply orderly_bind isItem
      intro first
      apply orderly_bind ((flat_optional separator).orderly allowance)
      intro found
      split
      · exact orderly_bind ih fun others =>
          (flat_pure (first :: others)).orderly allowance
      · exact (flat_pure [first]).orderly allowance

theorem orderly_sepBy {separator : Kind} {item : Rule α}
    (isItem : item.Orderly allowance) :
    (sepBy separator item).Orderly allowance := fun tokens =>
  orderly_sepByUpTo isItem tokens.length tokens

theorem orderly_deepen {rule : Rule α} (isRule : rule.Orderly allowance) :
    (deepen rule).OrderlyBehindOpener (allowance + 1) := by
  intro opener tokens isOpening
  have run := isRule tokens
  have cases_of_mem {opening : Opening}
      (member : opening ∈ (deepen rule tokens).openings) :
      opening = ⟨1, tokens⟩ ∨
        ∃ inner ∈ (rule tokens).openings, opening = inner.raise := by
    rcases List.mem_cons.mp member with here | deeper
    · exact .inl here
    · obtain ⟨inner, isInner, same⟩ := List.mem_map.mp deeper
      exact .inr ⟨inner, isInner, same.symm⟩
  constructor
  · exact List.suffix_cons _ _
  · exact run.suffix
  · intro opening member
    rcases cases_of_mem member with rfl | ⟨inner, isInner, rfl⟩
    · exact ⟨List.suffix_rfl, run.suffix⟩
    · exact run.between inner isInner
  · apply List.pairwise_cons.mpr
    constructor
    · intro opening member
      obtain ⟨inner, isInner, rfl⟩ := List.mem_map.mp member
      exact (run.between inner isInner).1.length_le
    · exact List.pairwise_map.mpr run.ordered
  · intro opening member
    rcases cases_of_mem member with rfl | ⟨inner, isInner, rfl⟩
    · exact ⟨[], opener, rfl, isOpening, Nat.le_refl _⟩
    · exact (run.behind inner isInner).raise opener
  · intro opening member
    rcases cases_of_mem member with rfl | ⟨inner, isInner, rfl⟩
    · exact Nat.le_add_left 1 (allowance + 1)
    · exact Nat.succ_le_succ (run.bounded inner isInner)
  · intro same
    obtain ⟨inner, isInner, level⟩ := run.tooDeep same
    refine ⟨inner.raise, ?_, congrArg Nat.succ level⟩
    exact List.mem_cons_of_mem _ (List.mem_map_of_mem isInner)
  · intro value same
    have succeeded : (rule tokens).result = .ok value := same
    have closed := run.closed value succeeded
    simp [deepen, succeeded, closed]

theorem orderly_tooDeep : (tooDeep : Rule α).OrderlyBehindOpener 0 := by
  intro opener tokens isOpening
  constructor
  · exact List.suffix_cons _ _
  · exact List.suffix_rfl
  · intro opening member
    cases List.mem_singleton.mp member
    exact ⟨List.suffix_rfl, List.suffix_rfl⟩
  · exact List.pairwise_singleton _ _
  · intro opening member
    cases List.mem_singleton.mp member
    exact ⟨[], opener, rfl, isOpening, Nat.le_refl _⟩
  · intro opening member
    cases List.mem_singleton.mp member
    exact Nat.le_refl _
  · intro _
    exact ⟨⟨1, tokens⟩, List.mem_singleton_self _, rfl⟩
  · intro value same
    cases same

theorem orderly_primary (dispatch : Dispatch) {inner : Rule Expr}
    (isInner : inner.OrderlyBehindOpener allowance) :
    (primary dispatch inner).Orderly allowance := by
  intro tokens
  by_cases group : Token.headKind tokens = .openParen ∧
      dispatch.opensGroup tokens
  · obtain ⟨isOpening, opens⟩ := group
    cases tokens with
    | nil => cases isOpening
    | cons opening others =>
        rw [primary_of_group isOpening opens]
        have opener : isOpener opening.kind := by
          have isParen : opening.kind = .openParen := isOpening
          simp [isOpener, isParen]
        apply Run.Orderly.widen
        apply orderly_bind_run (isInner opening others opener)
        intro body
        exact orderly_bind ((flat_expect _).orderly allowance) fun _ =>
          (flat_pure _).orderly allowance
  · rw [primary_of_predicate]
    · exact (flat_predicate dispatch).orderly allowance tokens
    · intro isOpening
      simpa [isOpening] using group

theorem orderly_factor {negated plain : Rule Expr}
    (isNegated : negated.OrderlyBehindOpener allowance)
    (isPlain : plain.Orderly allowance) :
    (factor negated plain).Orderly allowance := by
  intro tokens
  by_cases isNot : Token.headKind tokens = .notWord
  · cases tokens with
    | nil => cases isNot
    | cons notToken others =>
        have kind : notToken.kind = .notWord := isNot
        rw [factor_of_not kind]
        exact (isNegated notToken others (by simp [isOpener, kind])).widen
  · rw [factor_of_other isNot]
    exact isPlain tokens

theorem orderly_conjunction {item : Rule Expr}
    (isItem : item.Orderly allowance) : (conjunction item).Orderly allowance :=
  orderly_bind (orderly_sepBy isItem) fun _ => (flat_pure _).orderly allowance

theorem orderly_disjunction {item : Rule Expr}
    (isItem : item.Orderly allowance) : (disjunction item).Orderly allowance :=
  orderly_bind (orderly_sepBy isItem) fun _ => (flat_pure _).orderly allowance

theorem orderly_expression_and_negation (dispatch : Dispatch)
    (allowance : Nat) :
    (expression dispatch allowance).OrderlyBehindOpener allowance ∧
      (negation dispatch allowance).OrderlyBehindOpener allowance := by
  induction allowance with
  | zero => exact ⟨orderly_tooDeep, orderly_tooDeep⟩
  | succ allowance ih =>
      obtain ⟨isExpression, isNegation⟩ := ih
      have isPrimary := orderly_primary dispatch isExpression
      constructor
      · rw [expression_succ]
        exact orderly_deepen (orderly_disjunction (orderly_conjunction
          (orderly_factor isNegation isPrimary)))
      · rw [negation_succ]
        exact orderly_deepen (orderly_bind isPrimary fun _ =>
          (flat_pure _).orderly allowance)

/-- A parenthesis in front is as good as any opener. -/
theorem OrderlyBehindOpener.behindParen {rule : Rule α}
    (orderly : rule.OrderlyBehindOpener allowance) (tokens : List Token) :
    (rule tokens).Orderly allowance (⟨.openParen, "(", 0⟩ :: tokens) tokens :=
  orderly ⟨.openParen, "(", 0⟩ tokens (by decide)

theorem orderly_filter (dispatch : Dispatch) (allowance : Nat) :
    (filter dispatch allowance).OrderlyBehindOpener allowance := by
  intro opener tokens isOpening
  have isBody := (orderly_expression_and_negation dispatch allowance).1
  apply orderly_bind_run (isBody opener tokens isOpening)
  intro body
  exact orderly_bind (flat_finish.orderly allowance) fun _ =>
    (flat_pure _).orderly allowance

end Rule

end Criteria
