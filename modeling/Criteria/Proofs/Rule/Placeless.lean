import Criteria.Proofs.Rule.Flat
import Criteria.Proofs.Rule.Expression
import Criteria.Token.Layout
import Mathlib.Data.List.Forall2

/-!
# Rules do not look at places

Rules read the kinds and the texts of tokens and nothing else of them.  On
tokens that differ in their places at most they come out in the same way: with
the same value or the same fault, with as many tokens left, and with the same
levels opened.
-/

namespace Criteria

/-- The tokens differ in their places at most, one by one. -/
def AreAlike : List Token → List Token → Prop :=
  List.Forall₂ Token.Alike

theorem headKind_of_areAlike {left right : List Token}
    (tokens : AreAlike left right) :
    Token.headKind left = Token.headKind right := by
  cases tokens with
  | nil => rfl
  | cons first others => exact first.1

/-- Both results are the same fault, or they are values in the relation. -/
inductive SameResult {α : Type} (related : α → α → Prop) :
    Except Fault α → Except Fault α → Prop where
  | ok {left right : α} (isRelated : related left right) :
      SameResult related (.ok left) (.ok right)
  | error (fault : Fault) : SameResult related (.error fault) (.error fault)

/-- The runs came out in the same way, on tokens in different places. -/
structure Run.Alike {α : Type} (related : α → α → Prop) (left right : Run α) :
    Prop where
  result : SameResult related left.result right.result
  rest : AreAlike left.rest right.rest
  levels : left.openings.map Opening.level = right.openings.map Opening.level
  unclosed : left.unclosed = right.unclosed

theorem SameResult.eq {α : Type} {left right : Except Fault α}
    (same : SameResult Eq left right) : left = right := by
  cases same with
  | ok isRelated => rw [isRelated]
  | error => rfl

theorem Run.Alike.height_eq {α : Type} {related : α → α → Prop}
    {left right : Run α} (alike : left.Alike related right) :
    left.height = right.height := by
  have folded (openings : List Opening) :
      openings.foldr (fun opening height => max opening.level height) 0 =
        (openings.map Opening.level).foldr max 0 := by
    rw [List.foldr_map]
  unfold height
  rw [folded, folded, alike.levels]

namespace Rule

variable {α β : Type} {related : α → α → Prop} {target : β → β → Prop}

/-- On alike tokens the rules come out in the same way. -/
def Alike (related : α → α → Prop) (left right : Rule α) : Prop :=
  ∀ leftTokens rightTokens, AreAlike leftTokens rightTokens →
    (left leftTokens).Alike related (right rightTokens)

/-- The rule does not look at the places of tokens. -/
def Placeless (rule : Rule α) : Prop :=
  rule.Alike Eq rule

theorem alike_pure {left right : α} (isRelated : related left right) :
    (pure left : Rule α).Alike related (pure right) := fun _ _ tokens =>
  ⟨.ok isRelated, tokens, rfl, rfl⟩

theorem alike_bind {first second : Rule α} {firstNext secondNext : α → Rule β}
    (isFirst : first.Alike related second)
    (isNext : ∀ left right, related left right →
      (firstNext left).Alike target (secondNext right)) :
    (first >>= firstNext).Alike target (second >>= secondNext) := by
  intro leftTokens rightTokens tokens
  obtain ⟨result, rest, levels, unclosed⟩ := isFirst leftTokens rightTokens tokens
  generalize leftIs : (first leftTokens).result = leftResult at result
  generalize rightIs : (second rightTokens).result = rightResult at result
  cases result with
  | error fault =>
      rw [bind_of_error firstNext leftIs, bind_of_error secondNext rightIs]
      exact ⟨.error fault, rest, levels, unclosed⟩
  | @ok left right isRelated =>
      have next := isNext left right isRelated _ _ rest
      rw [bind_of_ok firstNext leftIs, bind_of_ok secondNext rightIs]
      refine ⟨next.result, next.rest, ?_, ?_⟩
      · rw [List.map_append, List.map_append, levels, next.levels]
      · exact congrArg₂ Nat.add unclosed next.unclosed

theorem placeless_pure (value : α) : (pure value : Rule α).Placeless :=
  alike_pure rfl

theorem placeless_fail (fault : Fault) : (fail fault : Rule α).Placeless :=
  fun _ _ tokens => ⟨.error fault, tokens, rfl, rfl⟩

theorem placeless_ask {question : List Token → α}
    (same : ∀ left right, AreAlike left right → question left = question right) :
    (ask question).Placeless := fun left right tokens =>
  ⟨.ok (same left right tokens), tokens, rfl, rfl⟩

theorem placeless_upcoming : upcoming.Placeless :=
  placeless_ask fun _ _ => headKind_of_areAlike

/-- What follows a rule that gives the same value in all places. -/
theorem Placeless.bind {first : Rule α} {next : α → Rule β}
    (isFirst : first.Placeless) (isNext : ∀ value, (next value).Placeless) :
    (first >>= next).Placeless := by
  apply alike_bind isFirst
  intro left right same
  subst same
  exact isNext left

theorem alike_expect (kind : Kind) :
    (expect kind).Alike Token.Alike (expect kind) := by
  intro leftTokens rightTokens tokens
  cases tokens with
  | nil => exact ⟨.error _, .nil, rfl, rfl⟩
  | @cons left right leftOthers rightOthers first others =>
      simp only [expect, ← first.1]
      split
      · exact ⟨.ok first, others, rfl, rfl⟩
      · exact ⟨.error _, .cons first others, rfl, rfl⟩

/-- The token that was expected may be used for its text. -/
theorem placeless_expect_bind {kind : Kind} {next : Token → Rule β}
    (isNext : ∀ left right : Token, left.Alike right →
      (next left).Alike Eq (next right)) :
    (expect kind >>= next).Placeless :=
  alike_bind (alike_expect kind) isNext

theorem placeless_expect_then {kind : Kind} {next : Rule β}
    (isNext : next.Placeless) :
    (do let _ ← expect kind; next).Placeless :=
  placeless_expect_bind fun _ _ _ => isNext

theorem placeless_optional (kind : Kind) : (optional kind).Placeless := by
  intro leftTokens rightTokens tokens
  cases tokens with
  | nil => exact ⟨.ok rfl, .nil, rfl, rfl⟩
  | @cons left right leftOthers rightOthers first others =>
      simp only [optional, ← first.1]
      split
      · exact ⟨.ok rfl, others, rfl, rfl⟩
      · exact ⟨.ok rfl, .cons first others, rfl, rfl⟩

theorem placeless_finish : finish.Placeless := by
  intro leftTokens rightTokens tokens
  cases tokens with
  | nil => exact ⟨.ok rfl, .nil, rfl, rfl⟩
  | cons first others => exact ⟨.error _, .cons first others, rfl, rfl⟩

theorem literal?_of_alike {left right : Token} (alike : left.Alike right) :
    left.literal? = right.literal? := by
  unfold Token.literal?
  rw [alike.1, alike.2]

theorem placeless_literal : literal.Placeless := by
  intro leftTokens rightTokens tokens
  cases tokens with
  | nil => exact ⟨.error _, .nil, rfl, rfl⟩
  | @cons left right leftOthers rightOthers first others =>
      simp only [literal, ← literal?_of_alike first]
      split
      · exact ⟨.ok rfl, others, rfl, rfl⟩
      · exact ⟨.error _, .cons first others, rfl, rfl⟩

theorem placeless_sepBy {separator : Kind} {item : Rule α}
    (isItem : item.Placeless) : (sepBy separator item).Placeless := by
  have bounded : ∀ bound, (sepByUpTo separator item bound).Placeless := by
    intro bound
    induction bound with
    | zero => exact isItem.bind fun last => placeless_pure [last]
    | succ bound ih =>
        apply isItem.bind
        intro first
        apply (placeless_optional separator).bind
        intro found
        split
        · exact ih.bind fun others => placeless_pure (first :: others)
        · exact placeless_pure [first]
  intro left right tokens
  have same : left.length = right.length := tokens.length_eq
  unfold sepBy
  rw [same]
  exact bounded right.length left right tokens

theorem placeless_deepen {rule : Rule α} (isRule : rule.Placeless) :
    (deepen rule).Placeless := by
  intro left right tokens
  obtain ⟨result, rest, levels, unclosed⟩ := isRule left right tokens
  have raised (openings : List Opening) :
      (openings.map Opening.raise).map Opening.level =
        (openings.map Opening.level).map Nat.succ := by
    rw [List.map_map, List.map_map]
    rfl
  refine ⟨result, rest, ?_, ?_⟩
  · simp only [deepen, List.map_cons, raised, levels]
  · simp only [deepen, result.eq, unclosed]

theorem placeless_tooDeep : (tooDeep : Rule α).Placeless :=
  placeless_deepen (placeless_fail .tooDeep)

theorem placeless_field : field.Placeless := by
  apply placeless_expect_bind
  intro left right alike
  apply alike_pure
  rw [alike.2]

theorem placeless_operand : operand.Placeless := by
  apply placeless_upcoming.bind
  intro kind
  split
  · exact placeless_field.bind fun _ => placeless_pure _
  · exact placeless_literal.bind fun _ => placeless_pure _

theorem placeless_pattern : pattern.Placeless := by
  apply placeless_upcoming.bind
  intro kind
  split
  · exact placeless_field.bind fun _ => placeless_pure _
  · apply placeless_expect_bind
    intro left right alike
    apply alike_pure
    rw [alike.2]
  · exact placeless_fail _

theorem placeless_relOp : relOp.Placeless := by
  apply placeless_upcoming.bind
  intro kind
  split
  · exact placeless_expect_then (placeless_pure _)
  · apply placeless_expect_then
    apply (placeless_optional _).bind
    intro found
    split
    · exact placeless_pure _
    · apply (placeless_optional _).bind
      intro found
      split
      · exact placeless_pure _
      · exact placeless_pure _
  · apply placeless_expect_then
    apply (placeless_optional _).bind
    intro found
    split
    · exact placeless_pure _
    · exact placeless_pure _
  · exact placeless_expect_then (placeless_expect_then (placeless_pure _))
  · exact placeless_fail _

theorem placeless_comparison : comparison.Placeless :=
  placeless_operand.bind fun _ => placeless_relOp.bind fun _ =>
    placeless_operand.bind fun _ => placeless_pure _

theorem placeless_between : between.Placeless :=
  placeless_field.bind fun _ => (placeless_optional _).bind fun _ =>
    placeless_expect_then (placeless_operand.bind fun _ =>
      placeless_expect_then (placeless_operand.bind fun _ => placeless_pure _))

theorem placeless_like : like.Placeless :=
  placeless_field.bind fun _ => (placeless_optional _).bind fun _ =>
    placeless_expect_then (placeless_pattern.bind fun _ => placeless_pure _)

theorem placeless_member : member.Placeless :=
  placeless_field.bind fun _ => (placeless_optional _).bind fun _ =>
    placeless_expect_then (placeless_expect_then
      ((placeless_sepBy placeless_literal).bind fun _ =>
        placeless_expect_then (placeless_pure _)))

theorem placeless_isNull : isNull.Placeless :=
  placeless_field.bind fun _ => placeless_expect_then
    ((placeless_optional _).bind fun _ =>
      placeless_expect_then (placeless_pure _))

end Rule

/-- A dispatch that does not look at the places of tokens. -/
structure Dispatch.Placeless (dispatch : Dispatch) : Prop where
  opensGroup : ∀ left right, AreAlike left right →
    dispatch.opensGroup left = dispatch.opensGroup right
  form : ∀ left right, AreAlike left right →
    dispatch.form left = dispatch.form right

section Lookahead

variable {left right : List Token}

theorem areAlike_tail (tokens : AreAlike left right) :
    AreAlike left.tail right.tail := by
  cases tokens with
  | nil => exact .nil
  | cons first others => exact others

theorem kindBeyond_of_areAlike (tokens : AreAlike left right) (unmatched : Nat) :
    kindBeyond unmatched left = kindBeyond unmatched right := by
  induction tokens generalizing unmatched with
  | nil => cases unmatched <;> rfl
  | @cons left right leftOthers rightOthers first others ih =>
      cases unmatched with
      | zero => exact first.1
      | succ unmatched => simp only [kindBeyond, ← first.1, ih]

theorem skipPoints_of_areAlike (tokens : AreAlike left right) :
    AreAlike (skipPoints left) (skipPoints right) := by
  fun_induction skipPoints left generalizing right with
  | case1 =>
      cases tokens
      exact .nil
  | case2 token point =>
      cases tokens with
      | cons first none =>
          cases none
          simp [skipPoints, ← first.2, point, AreAlike]
  | case3 token noPoint =>
      cases tokens with
      | cons first none =>
          cases none
          simpa [skipPoints, ← first.2, noPoint, AreAlike] using first
  | case4 token next rest point ih =>
      cases tokens with
      | cons first behind =>
          cases behind with
          | cons second others =>
              rw [skipPoints, ← first.2, if_pos point]
              exact ih others
  | case5 token next rest noPoint =>
      cases tokens with
      | cons first behind =>
          cases behind with
          | cons second others =>
              rw [skipPoints, ← first.2, if_neg noPoint]
              exact .cons first (.cons second others)

theorem behindNot_of_areAlike (tokens : AreAlike left right) :
    (behindNot left).1 = (behindNot right).1 ∧
      AreAlike (behindNot left).2 (behindNot right).2 := by
  cases tokens with
  | nil => exact ⟨rfl, .nil⟩
  | @cons left right leftOthers rightOthers first others =>
      simp only [behindNot, ← first.1]
      split
      · exact ⟨headKind_of_areAlike others, areAlike_tail others⟩
      · exact ⟨rfl, others⟩

theorem formOf_of_areAlike (tokens : AreAlike left right) :
    formOf skipPoints left = formOf skipPoints right := by
  have first := headKind_of_areAlike tokens
  have second := headKind_of_areAlike (areAlike_tail tokens)
  obtain ⟨word, behindWord⟩ :=
    behindNot_of_areAlike (skipPoints_of_areAlike (areAlike_tail tokens))
  have after := (behindNot_of_areAlike behindWord).1
  simp only [formOf, first, second, word, after]

theorem Dispatch.placeless_standard : Placeless .standard where
  opensGroup := by
    intro left right tokens
    simp only [standard, kindBeyond_of_areAlike (areAlike_tail tokens)]
  form := fun _ _ => formOf_of_areAlike

end Lookahead

namespace Rule

variable {dispatch : Dispatch}

theorem placeless_predicate (isDispatch : dispatch.Placeless) :
    (predicate dispatch).Placeless := by
  apply (placeless_ask isDispatch.form).bind
  intro form
  cases form with
  | between => exact placeless_between
  | like => exact placeless_like
  | member => exact placeless_member
  | isNull => exact placeless_isNull
  | comparison => exact placeless_comparison

theorem placeless_primary (isDispatch : dispatch.Placeless) {inner : Rule Expr}
    (isInner : inner.Placeless) : (primary dispatch inner).Placeless := by
  apply placeless_upcoming.bind
  intro kind
  split
  · apply (placeless_ask isDispatch.opensGroup).bind
    intro opens
    split
    · exact placeless_expect_then (isInner.bind fun _ =>
        placeless_expect_then (placeless_pure _))
    · exact placeless_predicate isDispatch
  · exact placeless_predicate isDispatch

theorem placeless_factor {negated plain : Rule Expr}
    (isNegated : negated.Placeless) (isPlain : plain.Placeless) :
    (factor negated plain).Placeless := by
  apply (placeless_optional _).bind
  intro found
  split
  · exact isNegated
  · exact isPlain

theorem placeless_conjunction {item : Rule Expr} (isItem : item.Placeless) :
    (conjunction item).Placeless :=
  (placeless_sepBy isItem).bind fun _ => placeless_pure _

theorem placeless_disjunction {item : Rule Expr} (isItem : item.Placeless) :
    (disjunction item).Placeless :=
  (placeless_sepBy isItem).bind fun _ => placeless_pure _

theorem placeless_expression_and_negation (isDispatch : dispatch.Placeless)
    (allowance : Nat) :
    (expression dispatch allowance).Placeless ∧
      (negation dispatch allowance).Placeless := by
  induction allowance with
  | zero => exact ⟨placeless_tooDeep, placeless_tooDeep⟩
  | succ allowance ih =>
      obtain ⟨isExpression, isNegation⟩ := ih
      have isPrimary := placeless_primary isDispatch isExpression
      constructor
      · rw [expression_succ]
        exact placeless_deepen (placeless_disjunction (placeless_conjunction
          (placeless_factor isNegation isPrimary)))
      · rw [negation_succ]
        exact placeless_deepen (isPrimary.bind fun _ => placeless_pure _)

/-- Reading a complete condition does not look at the places of tokens. -/
theorem placeless_filter (isDispatch : dispatch.Placeless) (allowance : Nat) :
    (filter dispatch allowance).Placeless :=
  (placeless_expression_and_negation isDispatch allowance).1.bind fun _ =>
    placeless_finish.bind fun _ => placeless_pure _

end Rule

end Criteria
