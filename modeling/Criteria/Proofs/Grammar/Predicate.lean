import Criteria.Grammar
import Criteria.Proofs.Rule.Reads
import Criteria.Rule.Predicate

/-!
# Reading predicates

The rule for each form of predicate reads exactly the token sequences of that
form, whatever follows them.  Which form is tried depends on the words at the
front, so that the last section ties the dispatch to the grammar.
-/

namespace Criteria

open Grammar

theorem Token.literal?_eq_some_iff {token : Token} {value : Literal} :
    token.literal? = some value ↔ IsLiteral token value := by
  constructor
  · intro found
    obtain ⟨kind, isKind, rfl⟩ := Option.map_eq_some_iff.mp found
    unfold Kind.literalKind? at isKind
    split at isKind <;> cases isKind
    · exact .string ‹_›
    · exact .numeric (.inl ‹_›)
    · exact .numeric (.inr ‹_›)
    · exact .boolean (.inl ‹_›)
    · exact .boolean (.inr ‹_›)
  · intro literal
    cases literal with
    | string kind => simp [Token.literal?, kind, Kind.literalKind?]
    | numeric kind =>
        rcases kind with kind | kind <;>
          simp [Token.literal?, kind, Kind.literalKind?]
    | boolean kind =>
        rcases kind with kind | kind <;>
          simp [Token.literal?, kind, Kind.literalKind?]

namespace Rule

variable {tokens rest : List Token}

theorem reads_field {subject : Field} :
    field.Reads tokens subject rest ↔
      ∃ token, tokens = token :: rest ∧ token.kind.isWordLike ∧
        subject = ⟨token.text⟩ := by
  have accepts (kind : Kind) :
      Kind.identifier.accepts kind ↔ kind.isWordLike := by
    cases kind <;> decide
  unfold field
  simp only [reads_bind, reads_pure, reads_expect, accepts]
  constructor
  · intro reads
    obtain ⟨token, middle, ⟨rfl, wordLike⟩, rfl, rfl⟩ := reads
    exact ⟨token, rfl, wordLike, rfl⟩
  · intro reads
    obtain ⟨token, rfl, wordLike, rfl⟩ := reads
    exact ⟨token, rest, ⟨rfl, wordLike⟩, rfl, rfl⟩

theorem reads_literal {value : Literal} :
    literal.Reads tokens value rest ↔
      ∃ token, tokens = token :: rest ∧ IsLiteral token value := by
  cases tokens with
  | nil => simp [Reads, literal]
  | cons first others =>
      cases found : first.literal? with
      | none =>
          simp only [Reads, literal, found, List.cons.injEq]
          constructor
          · intro reads
            obtain ⟨succeeded, -⟩ := reads
            cases succeeded
          · intro reads
            obtain ⟨token, ⟨rfl, -⟩, isLiteral⟩ := reads
            rw [Token.literal?_eq_some_iff.mpr isLiteral] at found
            cases found
      | some actual =>
          have isActual := Token.literal?_eq_some_iff.mp found
          simp only [Reads, literal, found, Except.ok.injEq, List.cons.injEq]
          constructor
          · intro reads
            obtain ⟨rfl, rfl⟩ := reads
            exact ⟨first, ⟨rfl, rfl⟩, isActual⟩
          · intro reads
            obtain ⟨token, ⟨rfl, rfl⟩, isLiteral⟩ := reads
            rw [Token.literal?_eq_some_iff.mpr isLiteral] at found
            cases found
            exact ⟨rfl, rfl⟩

theorem reads_operand {expression : Expr} :
    operand.Reads tokens expression rest ↔
      ∃ token, tokens = token :: rest ∧ IsOperand token expression := by
  unfold operand
  rw [reads_upcoming_then]
  constructor
  · intro reads
    split at reads
    · rename_i isIdentifier
      simp only [reads_bind, reads_field, reads_pure] at reads
      obtain ⟨_, _, ⟨token, rfl, -, rfl⟩, rfl, rfl⟩ := reads
      exact ⟨token, rfl, .field isIdentifier⟩
    · simp only [reads_bind, reads_literal, reads_pure] at reads
      obtain ⟨value, _, ⟨token, rfl, isLiteral⟩, rfl, rfl⟩ := reads
      exact ⟨token, rfl, .literal isLiteral⟩
  · intro split
    obtain ⟨token, rfl, isOperand⟩ := split
    cases isOperand with
    | field kind =>
        simp only [Token.headKind, kind, if_true, reads_bind, reads_field,
          reads_pure]
        exact ⟨_, _, ⟨token, rfl, by rw [kind]; decide, rfl⟩, rfl, rfl⟩
    | literal isLiteral =>
        have other : token.kind ≠ .identifier := by
          intro kind
          have found := Token.literal?_eq_some_iff.mpr isLiteral
          simp [Token.literal?, Kind.literalKind?, kind] at found
        simp only [Token.headKind, other, if_false, reads_bind, reads_literal,
          reads_pure]
        exact ⟨_, rest, ⟨token, rfl, isLiteral⟩, rfl, rfl⟩

theorem reads_pattern {expression : Expr} :
    pattern.Reads tokens expression rest ↔
      ∃ token, tokens = token :: rest ∧ IsPattern token expression := by
  have notIdentifier : Kind.string ≠ .identifier := by decide
  unfold pattern
  rw [reads_upcoming_then]
  constructor
  · intro reads
    split at reads
    · rename_i isIdentifier
      simp only [reads_bind, reads_field, reads_pure] at reads
      obtain ⟨_, _, ⟨token, rfl, -, rfl⟩, rfl, rfl⟩ := reads
      exact ⟨token, rfl, .field isIdentifier⟩
    · simp only [reads_bind, reads_expect_of_ne notIdentifier,
        reads_pure] at reads
      obtain ⟨token, _, ⟨rfl, isString⟩, rfl, rfl⟩ := reads
      exact ⟨token, rfl, .string isString⟩
    · exact (not_reads_fail reads).elim
  · intro split
    obtain ⟨token, rfl, isPattern⟩ := split
    cases isPattern with
    | field kind =>
        simp only [Token.headKind, kind, reads_bind, reads_field, reads_pure]
        exact ⟨_, _, ⟨token, rfl, by rw [kind]; decide, rfl⟩, rfl, rfl⟩
    | string kind =>
        simp only [Token.headKind, kind, reads_bind,
          reads_expect_of_ne notIdentifier, reads_pure]
        exact ⟨token, rest, ⟨rfl, kind⟩, rfl, rfl⟩

theorem isRelOp_of_reads_relOp {op : RelOp}
    (reads : relOp.Reads tokens op rest) :
    ∃ operator, tokens = operator ++ rest ∧
      IsRelOp (operator.map Token.kind) op := by
  unfold relOp at reads
  rw [reads_upcoming_then] at reads
  split at reads
  all_goals
    simp only [reads_expect_then, reads_optional_if, reads_pure, ne_eq,
      reduceCtorEq, not_false_eq_true, not_reads_fail] at reads
  · obtain ⟨first, _, rfl, kind, rfl, rfl⟩ := reads
    exact ⟨[first], rfl, by simpa [kind] using IsRelOp.eq⟩
  · obtain ⟨first, _, rfl, kind, second | ⟨-, second | ⟨-, rfl, rfl⟩⟩⟩ := reads
    · obtain ⟨second, _, rfl, secondKind, rfl, rfl⟩ := second
      exact ⟨[first, second], rfl,
        by simpa [kind, secondKind] using IsRelOp.le⟩
    · obtain ⟨second, _, rfl, secondKind, rfl, rfl⟩ := second
      exact ⟨[first, second], rfl,
        by simpa [kind, secondKind] using IsRelOp.ne⟩
    · exact ⟨[first], rfl, by simpa [kind] using IsRelOp.lt⟩
  · obtain ⟨first, _, rfl, kind, second | ⟨-, rfl, rfl⟩⟩ := reads
    · obtain ⟨second, _, rfl, secondKind, rfl, rfl⟩ := second
      exact ⟨[first, second], rfl,
        by simpa [kind, secondKind] using IsRelOp.ge⟩
    · exact ⟨[first], rfl, by simpa [kind] using IsRelOp.gt⟩
  · obtain ⟨first, _, rfl, kind, second, _, rfl, secondKind, rfl, rfl⟩ := reads
    exact ⟨[first, second], rfl,
      by simpa [kind, secondKind] using IsRelOp.unequal⟩

/-- An operator is read whole when what follows it cannot prolong it. -/
theorem reads_relOp_of_isRelOp {operator : List Token} {op : RelOp}
    (isRelOp : IsRelOp (operator.map Token.kind) op)
    (notEquals : Token.headKind rest ≠ .equals)
    (notGreater : Token.headKind rest ≠ .greaterThan) :
    relOp.Reads (operator ++ rest) op rest := by
  unfold relOp
  rw [reads_upcoming_then]
  generalize spelled : operator.map Token.kind = kinds at isRelOp
  have single {kind : Kind} (one : operator.map Token.kind = [kind]) :
      ∃ first, operator = [first] ∧ first.kind = kind := by
    exact List.map_eq_singleton_iff.mp one
  have double {kind next : Kind} (two : operator.map Token.kind = [kind, next]) :
      ∃ first second, operator = [first, second] ∧ first.kind = kind ∧
        second.kind = next := by
    obtain ⟨first, _, rfl, isFirst, others⟩ := List.map_eq_cons_iff.mp two
    obtain ⟨second, rfl, isSecond⟩ := List.map_eq_singleton_iff.mp others
    exact ⟨first, second, rfl, isFirst, isSecond⟩
  cases isRelOp with
  | eq =>
      obtain ⟨first, rfl, kind⟩ := single spelled
      simp [kind, reads_expect_then_cons]
  | lt =>
      obtain ⟨first, rfl, kind⟩ := single spelled
      simp [kind, reads_expect_then_cons,
        reads_optional_if_absent notEquals, reads_optional_if_absent notGreater]
  | gt =>
      obtain ⟨first, rfl, kind⟩ := single spelled
      simp [kind, reads_expect_then_cons,
        reads_optional_if_absent notEquals]
  | le | ge =>
      obtain ⟨first, second, rfl, kind, secondKind⟩ := double spelled
      simp [kind, reads_expect_then_cons,
        reads_optional_if_present secondKind]
  | ne =>
      obtain ⟨first, second, rfl, kind, secondKind⟩ := double spelled
      have notEqual : Token.headKind (second :: rest) ≠ .equals := by
        simp [secondKind]
      simp [kind, reads_expect_then_cons,
        reads_optional_if_absent notEqual, reads_optional_if_present secondKind]
  | unequal =>
      obtain ⟨first, second, rfl, kind, secondKind⟩ := double spelled
      simp [kind, secondKind, reads_expect_then_cons]

theorem operand_kind_ne {token : Token} {expression : Expr}
    (isOperand : IsOperand token expression) {kind : Kind}
    (noField : kind ≠ .identifier) (noLiteral : kind.literalKind? = none) :
    token.kind ≠ kind := by
  intro same
  cases isOperand with
  | field isIdentifier => exact noField (same.symm.trans isIdentifier)
  | literal isLiteral =>
      have found := Token.literal?_eq_some_iff.mpr isLiteral
      simp [Token.literal?, same, noLiteral] at found

theorem reads_comparison {expression : Expr} :
    comparison.Reads tokens expression rest ↔
      ∃ leftToken operator rightToken left op right,
        tokens = leftToken :: (operator ++ rightToken :: rest) ∧
          IsOperand leftToken left ∧ IsRelOp (operator.map Token.kind) op ∧
          IsOperand rightToken right ∧
          expression = .comparison left op right := by
  unfold comparison
  simp only [reads_bind, reads_operand, reads_pure]
  constructor
  · intro reads
    obtain ⟨left, _, ⟨leftToken, rfl, isLeft⟩, op, _, readsRelOp, right, _,
      ⟨rightToken, rfl, isRight⟩, rfl, rfl⟩ := reads
    obtain ⟨operator, rfl, isRelOp⟩ := isRelOp_of_reads_relOp readsRelOp
    exact ⟨leftToken, operator, rightToken, left, op, right, rfl, isLeft,
      isRelOp, isRight, rfl⟩
  · intro split
    obtain ⟨leftToken, operator, rightToken, left, op, right, rfl, isLeft,
      isRelOp, isRight, rfl⟩ := split
    have notEquals : Token.headKind (rightToken :: rest) ≠ .equals :=
      operand_kind_ne isRight (by decide) rfl
    have notGreater : Token.headKind (rightToken :: rest) ≠ .greaterThan :=
      operand_kind_ne isRight (by decide) rfl
    have readsRelOp := reads_relOp_of_isRelOp isRelOp notEquals notGreater
    exact ⟨left, _, ⟨leftToken, rfl, isLeft⟩, op, _, readsRelOp, right, _,
      ⟨rightToken, rfl, isRight⟩, rfl, rfl⟩

theorem reads_optionalNot {negated : Bool} :
    (optional .notWord).Reads tokens negated rest ↔
      ∃ nots, tokens = nots ++ rest ∧ IsOptionalNot nots negated ∧
        (negated = false → Token.headKind rest ≠ .notWord) := by
  rw [reads_optional (by decide)]
  constructor
  · intro found
    rcases found with ⟨rfl, token, rfl, isNot⟩ | ⟨rfl, rfl, missing⟩
    · exact ⟨[token], rfl, .present isNot, fun absent => by cases absent⟩
    · exact ⟨[], rfl, .absent, fun _ => missing⟩
  · intro split
    obtain ⟨nots, rfl, isNot, missing⟩ := split
    cases isNot with
    | absent => exact .inr ⟨rfl, rfl, missing rfl⟩
    | present isNot => exact .inl ⟨rfl, _, rfl, isNot⟩

/-- A subject, perhaps the word `NOT`, and a tail with the keyword; any word
may be the subject. -/
inductive ReadsTailed (keyword : Kind) :
    List Token → Expr → List Token → Prop where
  | intro {subject : Token} {nots tail rest : List Token} {negated : Bool}
      {denote : Field → Bool → Expr} (wordLike : subject.kind.isWordLike)
      (optionalNot : IsOptionalNot nots negated)
      (isTail : IsTail keyword tail denote) :
      ReadsTailed keyword (subject :: (nots ++ (tail ++ rest)))
        (denote ⟨subject.text⟩ negated) rest

theorem headKind_of_isTail {keyword : Kind} {tail : List Token}
    {denote : Field → Bool → Expr} (isTail : IsTail keyword tail denote)
    (others : List Token) : Token.headKind (tail ++ others) = keyword := by
  cases isTail with
  | between kind | like kind | member kind => exact kind

theorem keyword_ne_notWord {keyword : Kind} {tail : List Token}
    {denote : Field → Bool → Expr} (isTail : IsTail keyword tail denote) :
    keyword ≠ .notWord := by
  cases isTail <;> decide

/-- A rule that reads a subject, perhaps the word `NOT`, and then the tails of
a keyword. -/
theorem reads_tailed {keyword : Kind} {next : Field → Bool → Rule Expr}
    (readsTail : ∀ subject negated middle expression rest,
      (next subject negated).Reads middle expression rest ↔
        ∃ tail denote, middle = tail ++ rest ∧ IsTail keyword tail denote ∧
          expression = denote subject negated)
    {expression : Expr} :
    (do
      let subject ← field
      let negated ← optional .notWord
      next subject negated).Reads tokens expression rest ↔
      ReadsTailed keyword tokens expression rest := by
  simp only [reads_bind, reads_field, reads_optionalNot, readsTail]
  constructor
  · intro reads
    obtain ⟨_, _, ⟨subject, rfl, wordLike, rfl⟩, negated, _,
      ⟨nots, rfl, optionalNot, -⟩, tail, denote, rfl, isTail, rfl⟩ := reads
    exact .intro wordLike optionalNot isTail
  · intro tailed
    cases tailed with
    | @intro subject nots tail _ negated denote wordLike optionalNot isTail =>
        have missing : negated = false →
            Token.headKind (tail ++ rest) ≠ .notWord := by
          intro _
          rw [headKind_of_isTail isTail]
          exact keyword_ne_notWord isTail
        exact ⟨_, _, ⟨subject, rfl, wordLike, rfl⟩, negated, _,
          ⟨nots, rfl, optionalNot, missing⟩, tail, denote, rfl, isTail, rfl⟩

theorem reads_between {expression : Expr} :
    between.Reads tokens expression rest ↔
      ReadsTailed .betweenWord tokens expression rest := by
  unfold between
  apply reads_tailed
  intro subject negated middle expression rest
  simp only [reads_bind, reads_expect_of_ne, reads_operand, reads_pure, ne_eq,
    reduceCtorEq, not_false_eq_true]
  constructor
  · intro reads
    obtain ⟨keyword, _, ⟨rfl, kind⟩, low, _, ⟨lowToken, rfl, isLow⟩, andToken,
      _, ⟨rfl, isAnd⟩, high, _, ⟨highToken, rfl, isHigh⟩, rfl, rfl⟩ := reads
    exact ⟨[keyword, lowToken, andToken, highToken], _, rfl,
      .between kind isLow isAnd isHigh, rfl⟩
  · intro split
    obtain ⟨tail, denote, rfl, isTail, rfl⟩ := split
    cases isTail with
    | between kind isLow isAnd isHigh =>
        exact ⟨_, _, ⟨rfl, kind⟩, _, _, ⟨_, rfl, isLow⟩, _, _, ⟨rfl, isAnd⟩,
          _, _, ⟨_, rfl, isHigh⟩, rfl, rfl⟩

theorem reads_like {expression : Expr} :
    like.Reads tokens expression rest ↔
      ReadsTailed .likeWord tokens expression rest := by
  unfold like
  apply reads_tailed
  intro subject negated middle expression rest
  simp only [reads_bind, reads_expect_of_ne, reads_pattern, reads_pure, ne_eq,
    reduceCtorEq, not_false_eq_true]
  constructor
  · intro reads
    obtain ⟨keyword, _, ⟨rfl, kind⟩, matched, _,
      ⟨patternToken, rfl, isPattern⟩, rfl, rfl⟩ := reads
    exact ⟨[keyword, patternToken], _, rfl, .like kind isPattern, rfl⟩
  · intro split
    obtain ⟨tail, denote, rfl, isTail, rfl⟩ := split
    cases isTail with
    | like kind isPattern =>
        exact ⟨_, _, ⟨rfl, kind⟩, _, _, ⟨_, rfl, isPattern⟩, rfl, rfl⟩

theorem sound_literal : literal.Sound fun used value =>
    ∃ token, used = [token] ∧ IsLiteral token value := by
  intro tokens value rest reads
  obtain ⟨token, rfl, isLiteral⟩ := reads_literal.mp reads
  exact ⟨[token], rfl, token, rfl, isLiteral⟩

theorem sound_values : (sepBy .comma literal).Sound IsValues := by
  apply sound_sepBy (by decide) sound_literal
  · intro used value isSingle
    obtain ⟨token, rfl, isLiteral⟩ := isSingle
    exact .one isLiteral
  · intro used comma others value values isSingle isComma areValues
    obtain ⟨token, rfl, isLiteral⟩ := isSingle
    exact .more isLiteral isComma areValues

theorem reads_of_isValues {used : List Token} {values : List Literal}
    (areValues : IsValues used values)
    (noComma : Token.headKind rest ≠ .comma) {bound : Nat}
    (enough : used.length ≤ bound) :
    (sepByUpTo .comma literal bound).Reads (used ++ rest) values rest := by
  induction areValues generalizing bound with
  | one isLiteral =>
      exact reads_sepByUpTo_one (by decide)
        (reads_literal.mpr ⟨_, rfl, isLiteral⟩) noComma bound
  | @more token comma others value values isLiteral isComma areValues ih =>
      have readsFirst : literal.Reads ([token] ++ comma :: (others ++ rest))
          value (comma :: (others ++ rest)) :=
        reads_literal.mpr ⟨token, rfl, isLiteral⟩
      exact reads_sepByUpTo_append (by decide) readsFirst isComma
        (fun _ fewer => ih fewer) enough

theorem reads_member {expression : Expr} :
    member.Reads tokens expression rest ↔
      ReadsTailed .inWord tokens expression rest := by
  unfold member
  apply reads_tailed
  intro subject negated middle expression rest
  simp only [reads_bind, reads_expect_of_ne, reads_pure, ne_eq, reduceCtorEq,
    not_false_eq_true]
  constructor
  · intro reads
    obtain ⟨keyword, _, ⟨rfl, kind⟩, opening, _, ⟨rfl, isOpening⟩, values, _,
      readsValues, closing, _, ⟨rfl, isClosing⟩, rfl, rfl⟩ := reads
    obtain ⟨used, rfl, areValues⟩ := sound_values _ _ _ readsValues
    exact ⟨keyword :: opening :: (used ++ [closing]), _, by simp,
      .member kind isOpening areValues isClosing, rfl⟩
  · intro split
    obtain ⟨tail, denote, rfl, isTail, rfl⟩ := split
    cases isTail with
    | @member keyword opening closing used values kind isOpening areValues
        isClosing =>
        have noComma : Token.headKind (closing :: rest) ≠ .comma := by
          simp [isClosing]
        have readsValues : (sepBy .comma literal).Reads
            (used ++ closing :: rest) values (closing :: rest) :=
          reads_sepBy.mpr (reads_of_isValues areValues noComma (by simp))
        exact ⟨keyword, _, ⟨by simp, kind⟩, opening, _, ⟨rfl, isOpening⟩,
          values, _, readsValues, closing, rest, ⟨rfl, isClosing⟩, rfl, rfl⟩

theorem reads_isNull {expression : Expr} :
    isNull.Reads tokens expression rest ↔
      ∃ subject isToken nots nullToken negated,
        tokens = subject :: isToken :: (nots ++ nullToken :: rest) ∧
          subject.kind.isWordLike ∧ isToken.kind = .isWord ∧
          IsOptionalNot nots negated ∧ nullToken.kind = .nullWord ∧
          expression = .isNull ⟨subject.text⟩ negated := by
  unfold isNull
  simp only [reads_bind, reads_field, reads_expect_of_ne, reads_optionalNot,
    reads_pure, ne_eq, reduceCtorEq, not_false_eq_true]
  constructor
  · intro reads
    obtain ⟨_, _, ⟨subject, rfl, wordLike, rfl⟩, isToken, _, ⟨rfl, isKind⟩,
      negated, _, ⟨nots, rfl, optionalNot, -⟩, nullToken, _, ⟨rfl, nullKind⟩,
      rfl, rfl⟩ := reads
    exact ⟨subject, isToken, nots, nullToken, negated, rfl, wordLike, isKind,
      optionalNot, nullKind, rfl⟩
  · intro split
    obtain ⟨subject, isToken, nots, nullToken, negated, rfl, wordLike, isKind,
      optionalNot, nullKind, rfl⟩ := split
    have missing : negated = false →
        ¬ Token.headKind (nullToken :: rest) = .notWord := by
      intro _
      simp [nullKind]
    exact ⟨_, _, ⟨subject, rfl, wordLike, rfl⟩, isToken, _, ⟨rfl, isKind⟩,
      negated, _, ⟨nots, rfl, optionalNot, missing⟩, nullToken, _,
      ⟨rfl, nullKind⟩, rfl, rfl⟩

end Rule

end Criteria
