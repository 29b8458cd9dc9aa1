import Criteria.Proofs.Token.Lossless
import Criteria.Proofs.Walk.Follows

/-!
# Reading step by step

Every walk over conditions follows the rule of its name.  A session therefore
comes to the same when it reads its tokens as a whole and when it walks over
them step by step, with all the looks ahead, and in the second way it is seen
that it never went past the token at which it stops.
-/

namespace Criteria

namespace Walk

variable {allowance : Nat}

theorem follows_field : Follows allowance field Rule.field :=
  follows_take_then (by decide) fun _ => follows_pure _

theorem literal_eq_expect :
    Rule.literal =
      (do
        let found ← Rule.upcoming
        match found.literalKind? with
        | some kind =>
            let token ← Rule.expect found
            return ⟨kind, token.text⟩
        | none => Rule.fail (.expected .literal)) := by
  funext tokens
  rw [Rule.bind_of_pass (Rule.upcoming_eq tokens)]
  cases tokens with
  | nil => rfl
  | cons token rest =>
      have taken : Rule.expect token.kind (token :: rest) = ⟨.ok token, rest, [], 0⟩ :=
        if_pos (by simp [Kind.accepts])
      rw [Rule.literal, Token.headKind_cons, Token.literal?]
      cases token.kind.literalKind? with
      | none => rfl
      | some kind =>
          simp only [Option.map_some]
          rw [Rule.bind_of_pass taken]
          rfl

theorem literalKind?_endOfInput {kind : Kind} {value : LiteralKind}
    (isLiteral : kind.literalKind? = some value) : kind ≠ .endOfInput := by
  intro atEnd
  rw [atEnd] at isLiteral
  cases isLiteral

theorem follows_literal : Follows allowance literal Rule.literal := by
  rw [literal_eq_expect]
  apply follows_bind follows_upcoming
  intro found
  cases isLiteral : found.literalKind? with
  | none => exact follows_refuse _
  | some kind =>
      exact follows_take_then (literalKind?_endOfInput isLiteral) fun _ =>
        follows_pure _

theorem follows_operand : Follows allowance operand Rule.operand :=
  follows_isNext (follows_bind follows_field fun _ => follows_pure _)
    (follows_bind follows_literal fun _ => follows_pure _)

theorem follows_pattern : Follows allowance pattern Rule.pattern := by
  apply follows_bind follows_upcoming
  intro found
  cases found with
  | identifier => exact follows_bind follows_field fun _ => follows_pure _
  | string => exact follows_take_then (by decide) fun _ => follows_pure _
  | _ => exact follows_refuse _

theorem follows_relOp : Follows allowance relOp Rule.relOp := by
  apply follows_bind follows_upcoming
  intro found
  cases found with
  | equals => exact follows_expect_then (by decide) (follows_pure _)
  | lowerThan =>
      apply follows_expect_then (by decide)
      apply follows_bind (follows_optional (by decide))
      intro isEquals
      cases isEquals with
      | true => exact follows_pure _
      | false =>
          apply follows_bind (follows_optional (by decide))
          intro isGreater
          cases isGreater with
          | true => exact follows_pure _
          | false => exact follows_pure _
  | greaterThan =>
      apply follows_expect_then (by decide)
      apply follows_bind (follows_optional (by decide))
      intro isEquals
      cases isEquals with
      | true => exact follows_pure _
      | false => exact follows_pure _
  | negate =>
      exact follows_expect_then (by decide)
        (follows_expect_then (by decide) (follows_pure _))
  | _ => exact follows_refuse _

theorem follows_comparison : Follows allowance comparison Rule.comparison :=
  follows_bind follows_operand fun _ => follows_bind follows_relOp fun _ =>
    follows_bind follows_operand fun _ => follows_pure _

theorem follows_between : Follows allowance between Rule.between :=
  follows_bind follows_field fun _ =>
    follows_bind (follows_optional (by decide)) fun _ =>
      follows_expect_then (by decide) (follows_bind follows_operand fun _ =>
        follows_expect_then (by decide) (follows_bind follows_operand fun _ =>
          follows_pure _))

theorem follows_like : Follows allowance like Rule.like :=
  follows_bind follows_field fun _ =>
    follows_bind (follows_optional (by decide)) fun _ =>
      follows_expect_then (by decide) (follows_bind follows_pattern fun _ =>
        follows_pure _)

theorem follows_member : Follows allowance member Rule.member :=
  follows_bind follows_field fun _ =>
    follows_bind (follows_optional (by decide)) fun _ =>
      follows_expect_then (by decide) (follows_expect_then (by decide)
        (follows_bind (follows_sepBy (by decide) follows_literal) fun _ =>
          follows_expect_then (by decide) (follows_pure _)))

theorem follows_isNull : Follows allowance isNull Rule.isNull :=
  follows_bind follows_field fun _ =>
    follows_expect_then (by decide)
      (follows_bind (follows_optional (by decide)) fun _ =>
        follows_expect_then (by decide) (follows_pure _))

section Guided

variable {guide : Scout} {dispatch : Dispatch} (decides : guide.Follows dispatch)

include decides

theorem follows_predicate :
    Follows allowance (predicate guide) (Rule.predicate dispatch) := by
  apply follows_bind (follows_scout decides.form)
  intro form
  cases form with
  | between => exact follows_between
  | like => exact follows_like
  | member => exact follows_member
  | isNull => exact follows_isNull
  | comparison => exact follows_comparison

theorem follows_primary {inner : Walk Expr} {ruleInner : Rule Expr}
    (isInner : Follows allowance inner ruleInner) :
    Follows allowance (primary guide inner) (Rule.primary dispatch ruleInner) := by
  apply follows_isNext
  · apply follows_bind (follows_scout decides.opensGroup)
    intro opensGroup
    cases opensGroup with
    | true =>
        exact follows_expect_then (by decide) (follows_bind isInner fun _ =>
          follows_expect_then (by decide) (follows_pure _))
    | false => exact follows_predicate decides
  · exact follows_predicate decides

end Guided

theorem follows_factor {negated plain : Walk Expr} {ruleNegated rulePlain : Rule Expr}
    (isNegated : Follows allowance negated ruleNegated)
    (isPlain : Follows allowance plain rulePlain) :
    Follows allowance (factor negated plain) (Rule.factor ruleNegated rulePlain) := by
  apply follows_bind (follows_optional (by decide))
  intro isNot
  cases isNot with
  | true => exact isNegated
  | false => exact isPlain

theorem follows_conjunction {item : Walk Expr} {ruleItem : Rule Expr}
    (isItem : Follows allowance item ruleItem) :
    Follows allowance (conjunction item) (Rule.conjunction ruleItem) :=
  follows_bind (follows_sepBy (by decide) isItem) fun _ => follows_pure _

theorem follows_disjunction {item : Walk Expr} {ruleItem : Rule Expr}
    (isItem : Follows allowance item ruleItem) :
    Follows allowance (disjunction item) (Rule.disjunction ruleItem) :=
  follows_bind (follows_sepBy (by decide) isItem) fun _ => follows_pure _

/-- With so many levels left, the walks for conditions and negations follow
their rules. -/
theorem follows_expression_and_negation {guide : Scout} {dispatch : Dispatch}
    (decides : guide.Follows dispatch) (allowance : Nat) :
    Follows allowance (expression guide allowance)
        (Rule.expression dispatch allowance) ∧
      Follows allowance (negation guide allowance)
        (Rule.negation dispatch allowance) := by
  induction allowance with
  | zero => exact ⟨follows_tooDeep, follows_tooDeep⟩
  | succ allowance ih =>
      -- Inside, either walk may use both with the levels that are left.
      obtain ⟨isExpression, isNegation⟩ := ih
      have isPrimary := follows_primary decides isExpression
      constructor
      · exact follows_deepen (follows_disjunction (follows_conjunction
          (follows_factor isNegation isPrimary)))
      · exact follows_deepen (follows_bind isPrimary fun _ => follows_pure _)

theorem follows_filter {guide : Scout} {dispatch : Dispatch}
    (decides : guide.Follows dispatch) (allowance : Nat) :
    Follows allowance (filter guide allowance) (Rule.filter dispatch allowance) :=
  follows_bind (follows_expression_and_negation decides allowance).1 fun _ =>
    follows_bind follows_finish fun _ => follows_pure _

end Walk

namespace Session

variable {session : Session}

/-- No token of the session stands for the end of the input. -/
def NoEnd (session : Session) : Prop :=
  ∀ token ∈ session.cursor.tokens.toList, token.kind ≠ .endOfInput

theorem live_begun (noEnd : session.NoEnd) : session.begun.Live where
  cursor := Cursor.live_advance noEnd
  counted := Nat.le_refl 0

theorem affords_begun (session : Session) :
    session.begun.Affords
      (session.limit.allowance session.cursor.upcoming.length) := by
  intro count limit
  have limit : session.limit = .levels count := limit
  rw [limit, Limit.allowance]
  exact Nat.zero_add count

/-- A walk that is guided as a dispatch decides comes to what the reading does
that uses the dispatch. -/
theorem walk_eq_settle {guide : Scout} {dispatch : Dispatch}
    (decides : guide.Follows dispatch) (noEnd : session.NoEnd) :
    session.walk guide = session.begun.settle (session.reading dispatch) := by
  have pending : session.begun.cursor.pending = session.cursor.upcoming :=
    Cursor.pending_advance session.cursor
  rw [walk, (Walk.follows_filter decides _).settles _ (live_begun noEnd)
    (affords_begun session), pending]
  rfl

/-- Walking over the tokens step by step comes to the same as reading them as a
whole, and it leaves the same session. -/
theorem walk_eq_parse (noEnd : session.NoEnd) :
    session.walk .standard = session.parse := by
  have pending : session.begun.cursor.pending = session.cursor.upcoming :=
    Cursor.pending_advance session.cursor
  rw [walk_eq_settle Scout.follows_standard noEnd]
  unfold settle parse settled
  rw [pending]
  simp only [begun, Nat.zero_add, Nat.zero_max]
  cases (session.reading .standard).result with
  | ok tree => rfl
  | error fault => rfl

theorem Serves.noEnd {expression : String} {limit : Limit}
    (serves : session.Serves expression limit) : session.NoEnd := by
  intro token member
  rw [serves.tokens, List.toList_toArray] at member
  exact (areLexical_tokenize expression token member).kind_ne_endOfInput

end Session

end Criteria
