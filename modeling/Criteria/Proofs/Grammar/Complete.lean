import Criteria.Proofs.Grammar.Balanced
import Criteria.Proofs.Grammar.Sound

/-!
# Derivations are read

What the grammar derives is read, whatever else the input holds behind it, as
long as the levels that are allowed suffice and the next token is one that may
follow.  The induction is on the derivation; the allowance drops by one at
every group and every negation, as the nesting of the tree does.
-/

namespace Criteria

open Grammar

/-- The kinds that may follow a condition: it is complete or its group is. -/
def followsCondition : List Kind :=
  [.endOfInput, .closeParen]

/-- The kinds that may follow a term. -/
def followsTerm : List Kind :=
  .orWord :: followsCondition

/-- The kinds that may follow a factor. -/
def followsFactor : List Kind :=
  .andWord :: followsTerm

theorem not_continuesPredicate_of_followsFactor {kind : Kind}
    (follows : kind ∈ followsFactor) : continuesPredicate kind = false := by
  revert follows
  cases kind <;> decide

namespace Rule

variable {dispatch : Dispatch}

/-- The rule for factors, with so many levels allowed. -/
def factorWithin (dispatch : Dispatch) (allowance : Nat) : Rule Expr :=
  factor (negation dispatch allowance)
    (primary dispatch (expression dispatch allowance))

/-- The rule for terms, with so many levels allowed. -/
def termWithin (dispatch : Dispatch) (allowance : Nat) : Rule Expr :=
  conjunction (factorWithin dispatch allowance)

theorem reads_factorWithin_of_not {allowance : Nat} {notToken : Token}
    {tokens rest : List Token} {inner : Expr} (isNot : notToken.kind = .notWord)
    (fits : (Expr.negation inner).nesting ≤ allowance)
    (reads : ∀ smaller, inner.nesting ≤ smaller →
      (primary dispatch (expression dispatch smaller)).Reads tokens inner rest) :
    (factorWithin dispatch allowance).Reads (notToken :: tokens)
      (.negation inner) rest := by
  cases allowance with
  | zero => simp [Expr.nesting] at fits
  | succ smaller =>
      have innerFits : inner.nesting ≤ smaller := by
        simpa [Expr.nesting] using fits
      have readsNegation : (negation dispatch (smaller + 1)).Reads tokens
          (.negation inner) rest := by
        rw [negation_succ, reads_deepen, reads_bind]
        exact ⟨inner, rest, reads smaller innerFits, reads_pure.mpr ⟨rfl, rfl⟩⟩
      unfold factorWithin Reads
      rw [factor_of_not isNot]
      exact readsNegation

theorem reads_primary_of_predicate {inner : Rule Expr} {tokens rest : List Token}
    {predicate : Expr} (noGroup : Token.headKind tokens ≠ .openParen)
    (reads : (Rule.predicate dispatch).Reads tokens predicate rest) :
    (primary dispatch inner).Reads tokens predicate rest := by
  unfold Reads
  rw [primary_of_predicate fun isOpening => (noGroup isOpening).elim]
  exact reads

theorem reads_primary_of_group (regular : dispatch.Regular) {inner : Rule Expr}
    {opening closing : Token} {tokens rest : List Token} {body : Expr}
    (isOpening : opening.kind = .openParen) (balanced : Balanced tokens)
    (reads : inner.Reads (tokens ++ closing :: rest) body (closing :: rest))
    (isClosing : closing.kind = .closeParen)
    (follows : Token.headKind rest ∈ followsFactor) :
    (primary dispatch inner).Reads (opening :: (tokens ++ closing :: rest))
      (.group body) rest := by
  have beyond : kindBeyond 1 (tokens ++ closing :: rest) =
      Token.headKind rest := by
    rw [balanced.kindBeyond_append]
    simp [kindBeyond, isClosing]
  have opens : dispatch.opensGroup (opening :: (tokens ++ closing :: rest)) := by
    apply regular.opensGroup
    rw [List.tail_cons, beyond]
    exact not_continuesPredicate_of_followsFactor follows
  have readsGroup : (do
      let body ← inner
      let _ ← expect .closeParen
      return .group body : Rule Expr).Reads (tokens ++ closing :: rest)
        (.group body) rest := by
    simp only [reads_bind, reads_expect_of_ne, reads_pure, ne_eq, reduceCtorEq,
      not_false_eq_true]
    exact ⟨body, closing :: rest, reads, closing, rest, ⟨rfl, isClosing⟩, rfl, rfl⟩
  unfold Reads
  rw [primary_of_group isOpening opens]
  exact readsGroup

end Rule

namespace Grammar

theorem IsPrimary.headKind_ne_notWord {tokens : List Token} {primary : Expr}
    (isPrimary : IsPrimary tokens primary) (rest : List Token) :
    Token.headKind (tokens ++ rest) ≠ .notWord := by
  cases isPrimary with
  | group isOpening => simp [isOpening]
  | simple isSimple =>
      cases isSimple with
      | tailed subjectKind _ isTail =>
          rcases subjectKind with isIdentifier | isKeyword
          · simp [isIdentifier]
          · simpa [isKeyword] using Rule.keyword_ne_notWord isTail
      | isNull subjectKind => simp [subjectKind]
      | comparison isLeft => exact Rule.operand_kind_ne isLeft (by decide) rfl

theorem IsSimple.headKind_ne_openParen {tokens : List Token} {expression : Expr}
    (isSimple : IsSimple tokens expression) (rest : List Token) :
    Token.headKind (tokens ++ rest) ≠ .openParen := by
  cases isSimple with
  | tailed subjectKind _ isTail =>
      rcases subjectKind with isIdentifier | isKeyword
      · simp [isIdentifier]
      · cases isTail <;> simp [isKeyword]
  | isNull subjectKind => simp [subjectKind]
  | comparison isLeft => exact Rule.operand_kind_ne isLeft (by decide) rfl

variable {dispatch : Dispatch}

mutual

theorem IsCondition.reads (regular : dispatch.Regular) {tokens rest : List Token}
    {body : Expr} {allowance : Nat} :
    IsCondition tokens body → body.nesting < allowance →
      AreLexical tokens → Token.headKind rest ∈ followsCondition →
      (Rule.expression dispatch allowance).Reads (tokens ++ rest) body rest
  | .intro areTerms, fits, lexical, follows => by
      cases allowance with
      | zero => exact (Nat.not_lt_zero _ fits).elim
      | succ allowance =>
          rw [Expr.nesting_anyOf] at fits
          have enough : tokens.length ≤ (tokens ++ rest).length := by simp
          have reads := areTerms.reads regular (Nat.le_of_lt_succ fits) lexical
            follows _ enough
          rw [Rule.expression_succ, Rule.reads_deepen, Rule.disjunction,
            Rule.reads_bind]
          exact ⟨_, rest, Rule.reads_sepBy.mpr reads,
            Rule.reads_pure.mpr ⟨rfl, rfl⟩⟩

theorem AreTerms.reads (regular : dispatch.Regular) {tokens rest : List Token}
    {terms : List Expr} {allowance : Nat} :
    AreTerms tokens terms → Expr.nestingAll terms ≤ allowance →
      AreLexical tokens → Token.headKind rest ∈ followsCondition →
      ∀ bound, tokens.length ≤ bound →
        (Rule.sepByUpTo .orWord (Rule.termWithin dispatch allowance)
          bound).Reads (tokens ++ rest) terms rest
  | .one isTerm, fits, lexical, follows, bound, _ => by
      have reads := isTerm.reads regular (Nat.le_trans (Nat.le_max_left _ _) fits)
        lexical (List.mem_cons_of_mem _ follows)
      apply Rule.reads_sepByUpTo_one (by decide) reads
      intro again
      rw [again] at follows
      exact absurd follows (by decide)
  | @AreTerms.more used others separator term terms isTerm isSeparator areOthers,
      fits, lexical, follows, bound, enough => by
      have orFollows :
          Token.headKind (separator :: (others ++ rest)) ∈ followsTerm := by
        rw [Token.headKind_cons, isSeparator]
        decide
      have readsTerm := isTerm.reads regular
        (Nat.le_trans (Nat.le_max_left _ _) fits)
        lexical.left orFollows
      have readsOthers := areOthers.reads regular
        (Nat.le_trans (Nat.le_max_right _ _) fits) lexical.right.tail follows
      exact Rule.reads_sepByUpTo_append (by decide) readsTerm isSeparator
        readsOthers enough

theorem IsTerm.reads (regular : dispatch.Regular) {tokens rest : List Token}
    {term : Expr} {allowance : Nat} :
    IsTerm tokens term → term.nesting ≤ allowance →
      AreLexical tokens → Token.headKind rest ∈ followsTerm →
      (Rule.termWithin dispatch allowance).Reads (tokens ++ rest) term rest
  | .intro areFactors, fits, lexical, follows => by
      rw [Expr.nesting_allOf] at fits
      have enough : tokens.length ≤ (tokens ++ rest).length := by simp
      have reads := areFactors.reads regular fits lexical follows _ enough
      rw [Rule.termWithin, Rule.conjunction, Rule.reads_bind]
      exact ⟨_, rest, Rule.reads_sepBy.mpr reads,
        Rule.reads_pure.mpr ⟨rfl, rfl⟩⟩

theorem AreFactors.reads (regular : dispatch.Regular) {tokens rest : List Token}
    {factors : List Expr} {allowance : Nat} :
    AreFactors tokens factors → Expr.nestingAll factors ≤ allowance →
      AreLexical tokens → Token.headKind rest ∈ followsTerm →
      ∀ bound, tokens.length ≤ bound →
        (Rule.sepByUpTo .andWord (Rule.factorWithin dispatch allowance)
          bound).Reads (tokens ++ rest) factors rest
  | .one isFactor, fits, lexical, follows, bound, _ => by
      have reads := isFactor.reads regular
        (Nat.le_trans (Nat.le_max_left _ _) fits) lexical
        (List.mem_cons_of_mem _ follows)
      apply Rule.reads_sepByUpTo_one (by decide) reads
      intro again
      rw [again] at follows
      exact absurd follows (by decide)
  | @AreFactors.more used others separator factor factors isFactor isSeparator
      areOthers, fits, lexical, follows, bound, enough => by
      have andFollows :
          Token.headKind (separator :: (others ++ rest)) ∈ followsFactor := by
        rw [Token.headKind_cons, isSeparator]
        decide
      have readsFactor := isFactor.reads regular
        (Nat.le_trans (Nat.le_max_left _ _) fits)
        lexical.left andFollows
      have readsOthers := areOthers.reads regular
        (Nat.le_trans (Nat.le_max_right _ _) fits) lexical.right.tail follows
      exact Rule.reads_sepByUpTo_append (by decide) readsFactor isSeparator
        readsOthers enough

theorem IsFactor.reads (regular : dispatch.Regular) {tokens rest : List Token}
    {factor : Expr} {allowance : Nat} :
    IsFactor tokens factor → factor.nesting ≤ allowance →
      AreLexical tokens → Token.headKind rest ∈ followsFactor →
      (Rule.factorWithin dispatch allowance).Reads (tokens ++ rest) factor rest
  | .primary isPrimary, fits, lexical, follows => by
      have reads := isPrimary.reads regular fits lexical follows
      unfold Rule.factorWithin Rule.Reads
      rw [Rule.factor_of_other (isPrimary.headKind_ne_notWord rest)]
      exact reads
  | .negation isNot isPrimary, fits, lexical, follows => by
      apply Rule.reads_factorWithin_of_not isNot fits
      intro smaller innerFits
      exact isPrimary.reads regular innerFits lexical.tail follows
  | .negatedSubject isNot isNotSubject, fits, lexical, follows => by
      apply Rule.reads_factorWithin_of_not isNot fits
      intro smaller _
      apply Rule.reads_primary_of_predicate
      · cases isNotSubject with
        | intro subjectKind => simp [subjectKind]
      · exact Rule.reads_predicate_of_isNotSubject regular isNotSubject

theorem IsPrimary.reads (regular : dispatch.Regular) {tokens rest : List Token}
    {primary : Expr} {allowance : Nat} :
    IsPrimary tokens primary → primary.nesting ≤ allowance →
      AreLexical tokens → Token.headKind rest ∈ followsFactor →
      (Rule.primary dispatch (Rule.expression dispatch allowance)).Reads
        (tokens ++ rest) primary rest
  | .simple isSimple, _, lexical, _ =>
      Rule.reads_primary_of_predicate (isSimple.headKind_ne_openParen rest)
        (Rule.reads_predicate_of_isSimple regular isSimple lexical)
  | @IsPrimary.group opening closing used condition isOpening isCondition
      isClosing, fits, lexical, follows => by
      have closingFollows :
          Token.headKind (closing :: rest) ∈ followsCondition := by
        rw [Token.headKind_cons, isClosing]
        decide
      have reads := isCondition.reads regular (Nat.lt_of_succ_le fits)
        lexical.tail.left closingFollows
      rw [List.cons_append, List.append_assoc, List.singleton_append]
      exact Rule.reads_primary_of_group regular isOpening isCondition.balanced
        reads isClosing follows

end

end Grammar

end Criteria
