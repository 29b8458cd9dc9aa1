import Criteria.Proofs.Grammar.Predicate
import Criteria.Proofs.Token.Lexical

/-!
# The choice of a form

Looking ahead picks the form of a predicate from its first words.  A dispatch
is regular when it does so as the standard one does, apart from tokens that no
predicate contains at those places.  With a regular dispatch the rule for
predicates reads exactly the predicates of the grammar, where a predicate with
`NOT` as its subject is met behind a negation only.
-/

namespace Criteria

open Grammar

/-- A dispatch that picks forms by the leading words, does not pass over a
word, and takes a parenthesis for a group when no predicate goes on behind the
matching one. -/
structure Dispatch.Regular (dispatch : Dispatch) : Prop where
  form : ∃ skip, dispatch.form = formOf skip ∧
    ∀ token rest, token.text ≠ "." → skip (token :: rest) = token :: rest
  opensGroup : ∀ tokens, continuesPredicate (kindBeyond 1 tokens.tail) = false →
    dispatch.opensGroup tokens

theorem Dispatch.regular_standard : Regular .standard where
  form := by
    refine ⟨skipPoints, rfl, ?_⟩
    intro token rest noPoint
    cases rest <;> simp [skipPoints, noPoint]
  opensGroup := by
    intro tokens ends
    simp [standard, ends]

theorem Dispatch.regular_plain : Regular .plain where
  form := ⟨id, rfl, fun _ _ _ => rfl⟩
  opensGroup := fun _ _ => rfl

/-- The kind that the choice of a form starts from. -/
def leadingKind (tokens : List Token) : Kind :=
  if Token.headKind tokens = .notWord then Token.headKind tokens.tail
  else Token.headKind tokens

theorem leadingKind_of_formOf {skip : List Token → List Token}
    {tokens : List Token} {form : Form} (chosen : formOf skip tokens = form) :
    leadingKind tokens = .identifier ∨
      Form.ofWord (leadingKind tokens) (Token.headKind tokens) = form := by
  by_cases leading : leadingKind tokens = .identifier
  · exact .inl leading
  · right
    rw [← chosen]
    unfold formOf
    exact (if_neg leading).symm

theorem formOf_of_leadingKind {skip : List Token → List Token}
    {tokens : List Token} (leading : leadingKind tokens ≠ .identifier) :
    formOf skip tokens =
      Form.ofWord (leadingKind tokens) (Token.headKind tokens) :=
  if_neg leading

theorem formOf_of_identifier {skip : List Token → List Token}
    {tokens : List Token} (leading : leadingKind tokens = .identifier) :
    formOf skip tokens =
      Form.ofWord (behindNot (skip tokens.tail)).1
        (behindNot (behindNot (skip tokens.tail)).2).1 :=
  if_pos leading

/-- The form that a keyword with a tail announces. -/
def tailForm (keyword : Kind) : Form :=
  Form.ofWord keyword .endOfInput

section Tail

variable {keyword : Kind} {tail : List Token} {denote : Field → Bool → Expr}

theorem ofWord_eq_tailForm (isTail : IsTail keyword tail denote) (after : Kind) :
    Form.ofWord keyword after = tailForm keyword := by
  cases isTail <;> rfl

theorem eq_of_ofWord_eq_tailForm (isTail : IsTail keyword tail denote)
    {word after : Kind} (same : Form.ofWord word after = tailForm keyword) :
    word = keyword := by
  unfold Form.ofWord at same
  cases isTail with
  | between | like | member =>
      split at same
      all_goals first
        | rfl
        | (split at same <;> cases same)
        | cases same

theorem keyword_ne_identifier (isTail : IsTail keyword tail denote) :
    keyword ≠ .identifier := by
  cases isTail <;> decide

theorem isWordLike_keyword (isTail : IsTail keyword tail denote) :
    keyword.isWordLike := by
  cases isTail <;> decide

theorem isWordLike_subject (isTail : IsTail keyword tail denote) {subject : Token}
    (subjectKind : subject.kind = .identifier ∨ subject.kind = keyword) :
    subject.kind.isWordLike := by
  rcases subjectKind with isIdentifier | isKeyword
  · rw [isIdentifier]
    decide
  · rw [isKeyword]
    exact isWordLike_keyword isTail

end Tail

namespace Rule

variable {dispatch : Dispatch} {tokens rest : List Token} {expression : Expr}

theorem reads_predicate_of_tailForm {keyword : Kind} {tail : List Token}
    {denote : Field → Bool → Expr} (isTail : IsTail keyword tail denote)
    (chosen : dispatch.form tokens = tailForm keyword) :
    (predicate dispatch).Reads tokens expression rest ↔
      ReadsTailed keyword tokens expression rest := by
  unfold predicate
  rw [reads_ask_then, chosen]
  cases isTail with
  | between => exact reads_between
  | like => exact reads_like
  | member => exact reads_member

/-- A subject from which the choice of the form came to the keyword is an
identifier or the keyword, or it is the word `NOT`, and not before another. -/
theorem subject_of_tailForm {keyword : Kind} {skip : List Token → List Token}
    {tail : List Token} {denote : Field → Bool → Expr}
    (isTail : IsTail keyword tail denote) {subject : Token} {nots : List Token}
    {negated : Bool} (optionalNot : IsOptionalNot nots negated)
    (chosen : formOf skip (subject :: (nots ++ rest)) = tailForm keyword) :
    (subject.kind = .identifier ∨ subject.kind = keyword) ∨
      (subject.kind = .notWord ∧ nots = [] ∧ negated = false) := by
  have leading :=
    (leadingKind_of_formOf chosen).imp_right (eq_of_ofWord_eq_tailForm isTail)
  by_cases isNot : subject.kind = .notWord
  · right
    have second : leadingKind (subject :: (nots ++ rest)) =
        Token.headKind (nots ++ rest) :=
      if_pos isNot
    rw [second] at leading
    cases optionalNot with
    | absent => exact ⟨isNot, rfl, rfl⟩
    | present again =>
        have other := keyword_ne_notWord isTail
        simp [again, other.symm] at leading
  · left
    have first : leadingKind (subject :: (nots ++ rest)) = subject.kind :=
      if_neg isNot
    rwa [first] at leading

/-- What was read as a predicate of the chosen form is one of the grammar. -/
theorem grammar_of_readsTailed {keyword : Kind} {skip : List Token → List Token}
    (tailed : ReadsTailed keyword tokens expression rest)
    (chosen : formOf skip tokens = tailForm keyword) :
    ∃ used, tokens = used ++ rest ∧
      (IsSimple used expression ∨ IsNotSubject used expression) := by
  cases tailed with
  | @intro subject nots tail _ negated denote _ optionalNot isTail =>
      refine ⟨subject :: (nots ++ tail), by simp, ?_⟩
      rcases subject_of_tailForm isTail optionalNot chosen with
        subjectKind | ⟨isNot, rfl, rfl⟩
      · exact .inl (.tailed subjectKind optionalNot isTail)
      · exact .inr (.intro isNot isTail)

theorem subject_of_isNull {skip : List Token → List Token} {subject : Token}
    (chosen : formOf skip (subject :: tokens) = .isNull) :
    subject.kind = .identifier ∨ subject.kind = .notWord := by
  by_cases isNot : subject.kind = .notWord
  · exact .inr isNot
  · have first : leadingKind (subject :: tokens) = subject.kind :=
      if_neg isNot
    have leading := leadingKind_of_formOf chosen
    rw [first] at leading
    rcases leading with isIdentifier | isNull
    · exact .inl isIdentifier
    · unfold Form.ofWord at isNull
      split at isNull
      all_goals simp_all

/-- Before the word `IS` the word `NOT` is no subject. -/
theorem subjectKind_of_isNull {skip : List Token → List Token}
    {subject isToken : Token} (isKind : isToken.kind = .isWord)
    (chosen : formOf skip (subject :: isToken :: tokens) = .isNull) :
    subject.kind = .identifier := by
  rcases subject_of_isNull chosen with isIdentifier | isNot
  · exact isIdentifier
  · have second : leadingKind (subject :: isToken :: tokens) = isToken.kind :=
      if_pos isNot
    have leading := leadingKind_of_formOf chosen
    rw [second, isKind] at leading
    simp [Form.ofWord, isNot] at leading

theorem sound_predicate (regular : dispatch.Regular) :
    (predicate dispatch).Sound fun used expression =>
      IsSimple used expression ∨ IsNotSubject used expression := by
  intro tokens expression rest reads
  obtain ⟨skip, isForm, -⟩ := regular.form
  unfold predicate at reads
  rw [reads_ask_then] at reads
  generalize chosen : dispatch.form tokens = form at reads
  rw [isForm] at chosen
  cases form with
  | between => exact grammar_of_readsTailed (reads_between.mp reads) chosen
  | like => exact grammar_of_readsTailed (reads_like.mp reads) chosen
  | member => exact grammar_of_readsTailed (reads_member.mp reads) chosen
  | isNull =>
      obtain ⟨subject, isToken, nots, nullToken, negated, rfl, -, isKind,
        optionalNot, nullKind, rfl⟩ := reads_isNull.mp reads
      have subjectKind := subjectKind_of_isNull isKind chosen
      exact ⟨subject :: isToken :: (nots ++ [nullToken]), by simp,
        .inl (.isNull subjectKind isKind optionalNot nullKind)⟩
  | comparison =>
      obtain ⟨leftToken, operator, rightToken, left, op, right, rfl, isLeft,
        isRelOp, isRight, rfl⟩ := reads_comparison.mp reads
      exact ⟨leftToken :: (operator ++ [rightToken]), by simp,
        .inl (.comparison isLeft isRelOp isRight)⟩

end Rule

theorem behindNot_of_ne {token : Token} {others : List Token}
    (other : token.kind ≠ .notWord) :
    behindNot (token :: others) = (token.kind, others) :=
  if_neg other

theorem behindNot_optionalNot {nots middle : List Token} {negated : Bool}
    (optionalNot : IsOptionalNot nots negated)
    (other : Token.headKind middle ≠ .notWord) :
    (behindNot (nots ++ middle)).1 = Token.headKind middle := by
  cases optionalNot with
  | absent =>
      cases middle with
      | nil => rfl
      | cons first others => exact congrArg Prod.fst (behindNot_of_ne other)
  | present isNot => simp [behindNot, isNot]

/-- A word that may stand behind the subject of a predicate is not taken for a
point. -/
theorem text_ne_point_of_isWordLike {token : Token} (lexical : token.IsLexical)
    (wordLike : token.kind.isWordLike) : token.text ≠ "." := by
  apply lexical.text_ne_point
  · intro same
    rw [same] at wordLike
    exact absurd wordLike (by decide)
  · intro same
    rw [same] at wordLike
    exact absurd wordLike (by decide)

theorem exists_word_behind_subject {keyword : Kind} {nots tail : List Token}
    {negated : Bool} {denote : Field → Bool → Expr}
    (optionalNot : IsOptionalNot nots negated)
    (isTail : IsTail keyword tail denote) :
    ∃ word others, nots ++ tail = word :: others ∧ word.kind.isWordLike := by
  cases optionalNot with
  | @present token isNot =>
      exact ⟨token, tail, rfl, by rw [isNot]; decide⟩
  | absent =>
      have wordLike := isWordLike_keyword isTail
      cases isTail with
      | between kind | like kind | member kind =>
          exact ⟨_, _, rfl, by rwa [kind]⟩

namespace Rule

variable {dispatch : Dispatch} {tokens rest : List Token} {expression : Expr}

theorem form_of_tailed (regular : dispatch.Regular) {keyword : Kind}
    {subject : Token} {nots tail : List Token} {negated : Bool}
    {denote : Field → Bool → Expr}
    (subjectKind : subject.kind = .identifier ∨ subject.kind = keyword)
    (optionalNot : IsOptionalNot nots negated)
    (isTail : IsTail keyword tail denote)
    (lexical : AreLexical (nots ++ tail)) :
    dispatch.form (subject :: (nots ++ (tail ++ rest))) = tailForm keyword := by
  obtain ⟨skip, isForm, keeps⟩ := regular.form
  have notNot := keyword_ne_notWord isTail
  have behind : Token.headKind (tail ++ rest) = keyword :=
    headKind_of_isTail isTail rest
  have subjectNotNot : subject.kind ≠ .notWord := by
    rcases subjectKind with isIdentifier | isKeyword
    · simp [isIdentifier]
    · simpa [isKeyword] using notNot
  have leading : leadingKind (subject :: (nots ++ (tail ++ rest))) =
      subject.kind :=
    if_neg subjectNotNot
  rw [isForm]
  rcases subjectKind with isIdentifier | isKeyword
  · have kept : skip (nots ++ (tail ++ rest)) = nots ++ (tail ++ rest) := by
      obtain ⟨word, others, split, wordLike⟩ :=
        exists_word_behind_subject optionalNot isTail
      have wordLexical : word.IsLexical := lexical word (by simp [split])
      rw [← List.append_assoc, split]
      exact keeps _ _ (text_ne_point_of_isWordLike wordLexical wordLike)
    rw [formOf_of_identifier (leading.trans isIdentifier), List.tail_cons, kept,
      behindNot_optionalNot optionalNot (by rwa [behind]), behind]
    exact ofWord_eq_tailForm isTail _
  · have notIdentifier : leadingKind (subject :: (nots ++ (tail ++ rest))) ≠
        .identifier := by
      rw [leading, isKeyword]
      exact keyword_ne_identifier isTail
    rw [formOf_of_leadingKind notIdentifier, leading, isKeyword]
    exact ofWord_eq_tailForm isTail _

theorem form_of_isNull (regular : dispatch.Regular)
    {subject isToken nullToken : Token} {nots : List Token} {negated : Bool}
    (subjectKind : subject.kind = .identifier)
    (isKind : isToken.kind = .isWord)
    (optionalNot : IsOptionalNot nots negated)
    (nullKind : nullToken.kind = .nullWord) (lexical : isToken.IsLexical) :
    dispatch.form (subject :: isToken :: (nots ++ nullToken :: rest)) =
      .isNull := by
  obtain ⟨skip, isForm, keeps⟩ := regular.form
  have leading :
      leadingKind (subject :: isToken :: (nots ++ nullToken :: rest)) =
        .identifier := by
    simp [leadingKind, subjectKind]
  have noPoint : isToken.text ≠ "." :=
    text_ne_point_of_isWordLike lexical (by rw [isKind]; decide)
  have notNot : isToken.kind ≠ .notWord := by simp [isKind]
  have nullNotNot : Token.headKind (nullToken :: rest) ≠ .notWord := by
    simp [nullKind]
  rw [isForm, formOf_of_identifier leading, List.tail_cons, keeps _ _ noPoint,
    behindNot_of_ne notNot, behindNot_optionalNot optionalNot nullNotNot]
  simp [Form.ofWord, isKind, nullKind]

theorem kind_of_isRelOp {operator : List Token} {op : RelOp}
    (isRelOp : IsRelOp (operator.map Token.kind) op) :
    ∃ first others, operator = first :: others ∧
      first.kind ∈ [Kind.equals, .lowerThan, .greaterThan, .negate] := by
  cases operator with
  | nil => cases isRelOp
  | cons first others =>
      refine ⟨first, others, rfl, ?_⟩
      generalize spelled : (first :: others).map Token.kind = kinds at isRelOp
      have isFirst : first.kind = kinds.headD .endOfInput := by
        simp [← spelled]
      rw [isFirst]
      cases isRelOp <;> simp

theorem form_of_comparison (regular : dispatch.Regular)
    {leftToken : Token} {operator : List Token} {left : Expr} {op : RelOp}
    (isLeft : IsOperand leftToken left)
    (isRelOp : IsRelOp (operator.map Token.kind) op)
    (lexical : AreLexical operator) :
    dispatch.form (leftToken :: (operator ++ rest)) = .comparison := by
  obtain ⟨skip, isForm, keeps⟩ := regular.form
  obtain ⟨first, others, rfl, firstKind⟩ := kind_of_isRelOp isRelOp
  have leading : leadingKind (leftToken :: (first :: others ++ rest)) =
      leftToken.kind :=
    if_neg (operand_kind_ne isLeft (by decide) rfl)
  rw [isForm]
  cases isLeft with
  | field isIdentifier =>
      have noPoint : first.text ≠ "." := by
        apply lexical.head.text_ne_point
        · intro same
          simp [same] at firstKind
        · intro same
          simp [same] at firstKind
      have notNot : first.kind ≠ .notWord := by
        intro same
        simp [same] at firstKind
      rw [formOf_of_identifier (leading.trans isIdentifier), List.tail_cons,
        List.cons_append, keeps _ _ noPoint, behindNot_of_ne notNot]
      unfold Form.ofWord
      split
      all_goals simp_all
  | literal isLiteral =>
      have notIdentifier : leftToken.kind ≠ .identifier := by
        cases isLiteral with
        | string kind => simp [kind]
        | numeric kind | boolean kind => rcases kind with kind | kind <;> simp [kind]
      rw [formOf_of_leadingKind (by rwa [leading]), leading]
      cases isLiteral with
      | string kind => simp [Form.ofWord, kind]
      | numeric kind | boolean kind =>
          rcases kind with kind | kind <;> simp [Form.ofWord, kind]

theorem reads_predicate_of_isSimple (regular : dispatch.Regular)
    (isSimple : IsSimple tokens expression)
    (lexical : AreLexical tokens) :
    (predicate dispatch).Reads (tokens ++ rest) expression rest := by
  cases isSimple with
  | @tailed keyword subject nots tail negated denote subjectKind optionalNot
      isTail =>
      have chosen : dispatch.form (subject :: (nots ++ (tail ++ rest))) =
          tailForm keyword := by
        exact form_of_tailed regular subjectKind optionalNot isTail lexical.tail
      rw [List.cons_append, List.append_assoc]
      exact (reads_predicate_of_tailForm isTail chosen).mpr
        (.intro (isWordLike_subject isTail subjectKind) optionalNot isTail)
  | @isNull subject isToken nullToken nots negated subjectKind isKind
      optionalNot nullKind =>
      have chosen : dispatch.form
          (subject :: isToken :: (nots ++ nullToken :: rest)) = .isNull :=
        form_of_isNull regular subjectKind isKind optionalNot nullKind
          lexical.tail.head
      have wordLike : subject.kind.isWordLike := by
        rw [subjectKind]
        decide
      unfold predicate
      rw [List.cons_append, List.cons_append, List.append_assoc,
        List.singleton_append, reads_ask_then, chosen]
      exact reads_isNull.mpr ⟨subject, isToken, nots, nullToken, negated, rfl,
        wordLike, isKind, optionalNot, nullKind, rfl⟩
  | @comparison leftToken rightToken operator left right op isLeft isRelOp
      isRight =>
      have chosen : dispatch.form
          (leftToken :: (operator ++ rightToken :: rest)) = .comparison :=
        form_of_comparison regular isLeft isRelOp lexical.tail.left
      unfold predicate
      rw [List.cons_append, List.append_assoc, List.singleton_append,
        reads_ask_then, chosen]
      exact reads_comparison.mpr ⟨leftToken, operator, rightToken, left, op,
        right, rfl, isLeft, isRelOp, isRight, rfl⟩

theorem reads_predicate_of_isNotSubject (regular : dispatch.Regular)
    (isNotSubject : IsNotSubject tokens expression) :
    (predicate dispatch).Reads (tokens ++ rest) expression rest := by
  obtain ⟨skip, isForm, -⟩ := regular.form
  cases isNotSubject with
  | @intro keyword subject tail denote subjectKind isTail =>
      have leading : leadingKind (subject :: (tail ++ rest)) = keyword := by
        rw [leadingKind, Token.headKind_cons, if_pos subjectKind]
        exact headKind_of_isTail isTail rest
      have chosen : dispatch.form (subject :: (tail ++ rest)) =
          tailForm keyword := by
        rw [isForm, formOf_of_leadingKind, leading]
        · exact ofWord_eq_tailForm isTail _
        · rw [leading]
          exact keyword_ne_identifier isTail
      have wordLike : subject.kind.isWordLike := by
        rw [subjectKind]
        decide
      rw [List.cons_append]
      exact (reads_predicate_of_tailForm isTail chosen).mpr
        (.intro wordLike .absent isTail)

end Rule

end Criteria
