import Criteria.Proofs.Grammar.Junction

/-!
# The shape of conditions

What the grammar derives from lexemes has, at every place, the constructs that
may stand there and the spellings that names and literals have.  Each rule of
the grammar adds one construct above parts that have the shape already; what a
junction or a group asks of its operands is kept beside it.
-/

namespace Criteria

namespace Expr

/-- Every part of the expression has the shape and the spelling. -/
def WellShaped (expression : Expr) : Prop :=
  ∀ part ∈ expression.walk, part.HasShape ∧ part.HasSpelling

theorem wellShaped_of_children {expression : Expr} (shape : expression.HasShape)
    (spelling : expression.HasSpelling)
    (children : ∀ child ∈ expression.children, child.WellShaped) :
    expression.WellShaped := by
  unfold WellShaped
  rw [walk_eq_cons, List.forall_mem_cons]
  refine ⟨⟨shape, spelling⟩, ?_⟩
  intro part below
  obtain ⟨child, isChild, inside⟩ := List.mem_flatMap.mp below
  exact children child isChild part inside

/-- A part that may stand in a group. -/
structure FitsGroup (expression : Expr) : Prop where
  wellShaped : expression.WellShaped
  notBare : expression.isBare = false

theorem fitsGroup_anyOf {terms : List Expr} (someTerm : terms ≠ [])
    (noDisjunction : ∀ term ∈ terms, term.isDisjunction = false)
    (fit : ∀ term ∈ terms, term.FitsGroup) : (anyOf terms).FitsGroup := by
  match terms with
  | [] => exact (someTerm rfl).elim
  | [term] => exact fit term List.mem_cons_self
  | first :: second :: others =>
      refine ⟨wellShaped_of_children ⟨?_, noDisjunction⟩ ⟨nofun, nofun⟩ ?_, rfl⟩
      · simp
      · intro term member
        exact (fit term member).wellShaped

theorem fitsGroup_allOf {factors : List Expr} (someFactor : factors ≠ [])
    (noJunction : ∀ factor ∈ factors, factor.IsNoJunction)
    (fit : ∀ factor ∈ factors, factor.FitsGroup) : (allOf factors).FitsGroup := by
  match factors with
  | [] => exact (someFactor rfl).elim
  | [factor] => exact fit factor List.mem_cons_self
  | first :: second :: others =>
      refine ⟨wellShaped_of_children ⟨?_, noJunction⟩ ⟨nofun, nofun⟩ ?_, rfl⟩
      · simp
      · intro factor member
        exact (fit factor member).wellShaped

/-- A part that may stand below a negation. -/
structure FitsNegation (expression : Expr) : Prop where
  wellShaped : expression.WellShaped
  isNegatable : expression.isNegatable

variable {expression : Expr}

theorem FitsNegation.fitsGroup (fits : expression.FitsNegation) :
    expression.FitsGroup := by
  refine ⟨fits.wellShaped, ?_⟩
  have isNegatable := fits.isNegatable
  cases expression <;> first | rfl | cases isNegatable

theorem FitsNegation.negation (fits : expression.FitsNegation) :
    (Expr.negation expression).FitsGroup :=
  ⟨wellShaped_of_children fits.isNegatable ⟨nofun, nofun⟩
    (List.forall_mem_singleton.mpr fits.wellShaped), rfl⟩

theorem FitsGroup.group (fits : expression.FitsGroup) :
    (Expr.group expression).FitsNegation :=
  ⟨wellShaped_of_children fits.notBare ⟨nofun, nofun⟩
    (List.forall_mem_singleton.mpr fits.wellShaped), rfl⟩

end Expr

section Spelling

/-- The characters that tell a float from an integer. -/
def isFloatMark (character : Char) : Bool :=
  character = '.' || character = 'e' || character = 'E'

theorem any_isFloatMark_of_isDigits {digits : List Char}
    (areDigits : isDigits digits) : digits.any isFloatMark = false := by
  have areAll : ∀ digit ∈ digits, digit.isDigit := by
    have both := Bool.and_eq_true_iff.mp areDigits
    exact List.all_eq_true.mp both.2
  rw [List.any_eq_false]
  intro digit member isMark
  have isDigit := areAll digit member
  simp only [isFloatMark, Bool.or_eq_true, decide_eq_true_eq] at isMark
  rcases isMark with (rfl | rfl) | rfl <;> simp at isDigit

theorem any_isFloatMark_afterPoints (groups : List (List Char)) :
    (afterPoints groups).any isFloatMark = !groups.isEmpty := by
  cases groups with
  | nil => rfl
  | cons group groups => simp [afterPoints, isFloatMark]

theorem any_isFloatMark_of_isNumeral {text : List Char} {points : Nat}
    {hasExponent : Bool} (isNumeral : IsNumeral text points hasExponent) :
    text.any isFloatMark ↔ points ≠ 0 ∨ hasExponent = true := by
  cases isNumeral with
  | plain wholeDigits _ =>
      simp [any_isFloatMark_of_isDigits wholeDigits, any_isFloatMark_afterPoints]
  | scientific _ _ isExponent =>
      cases isExponent with
      | intro isMark _ _ => rcases isMark with rfl | rfl <;> simp [isFloatMark]

theorem isSome_asBool? {raw : String}
    (isBoolean : sameWord Kind.trueWord.describe raw ∨
      sameWord Kind.falseWord.describe raw) :
    (Literal.asBool? ⟨.boolean, raw⟩).isSome := by
  have upperTrue : foldCase "true" = foldCase Kind.trueWord.describe := by decide
  have upperFalse : foldCase "false" = foldCase Kind.falseWord.describe := by decide
  simp only [sameWord, decide_eq_true_eq] at isBoolean
  simp only [Literal.asBool?, sameWord, upperTrue, upperFalse]
  rcases isBoolean with isTrue | isFalse
  · simp [isTrue]
  · rw [← isFalse]
    decide

end Spelling

namespace Grammar

section Parts

variable {token : Token} {tokens : List Token} {value : Literal}
  {expression : Expr}

theorem IsLiteral.isSpelled (isLiteral : IsLiteral token value)
    (lexical : token.IsLexical) : value.IsSpelled := by
  have isLexeme := lexical.resolve_left isLiteral.classified
  cases isLiteral with
  | string _ => trivial
  | numeric kind =>
      obtain ⟨points, hasExponent, isNumeral, few, _⟩ := isLexeme.isNumeral kind
      exact ⟨points, hasExponent, isNumeral, few⟩
  | boolean kind =>
      apply isSome_asBool?
      rcases kind with isTrue | isFalse
      · left
        have described := lexical.sameWord_describe (isTrue ▸ rfl)
        rwa [isTrue] at described
      · right
        have described := lexical.sameWord_describe (isFalse ▸ rfl)
        rwa [isFalse] at described

/-- The literals that look like floats are those made of floats. -/
theorem IsLiteral.isFloatLike_iff (isLiteral : IsLiteral token value)
    (lexical : token.IsLexical) : value.isFloatLike ↔ token.kind = .float := by
  have isLexeme := lexical.resolve_left isLiteral.classified
  cases isLiteral with
  | string kind => simp [Literal.isFloatLike, kind]
  | numeric kind =>
      obtain ⟨points, hasExponent, isNumeral, few, isFloat⟩ :=
        isLexeme.isNumeral kind
      have marked := any_isFloatMark_of_isNumeral isNumeral
      have looks : Literal.isFloatLike ⟨.numeric, token.text⟩ ↔
          token.text.toList.any isFloatMark := by
        rw [Literal.isFloatLike]
        simp [isFloatMark]
      have onePoint : points ≠ 0 ↔ points = 1 := by omega
      rw [looks, marked, isFloat, onePoint]
  | boolean kind =>
      rcases kind with isTrue | isFalse
      · simp [Literal.isFloatLike, isTrue]
      · simp [Literal.isFloatLike, isFalse]

theorem wellShaped_field {name : Field} (spelled : isWord name.name.toList) :
    (Expr.field name).WellShaped :=
  Expr.wellShaped_of_children trivial
    ⟨List.forall_mem_singleton.mpr spelled, nofun⟩ nofun

theorem wellShaped_literal (isSpelled : value.IsSpelled) :
    (Expr.literal value).WellShaped :=
  Expr.wellShaped_of_children trivial
    ⟨nofun, List.forall_mem_singleton.mpr isSpelled⟩ nofun

theorem IsOperand.wellShaped (isOperand : IsOperand token expression)
    (lexical : token.IsLexical) : expression.WellShaped := by
  cases isOperand with
  | field kind => exact wellShaped_field (lexical.isWord_text (kind ▸ rfl))
  | literal isLiteral => exact wellShaped_literal (isLiteral.isSpelled lexical)

theorem IsOperand.isBare (isOperand : IsOperand token expression) :
    expression.isBare := by
  cases isOperand <;> rfl

theorem IsPattern.isFieldOrString (isPattern : IsPattern token expression) :
    expression.isFieldOrString := by
  cases isPattern <;> rfl

theorem IsValues.areSpelled {values : List Literal}
    (areValues : IsValues tokens values) (lexical : AreLexical tokens) :
    ∀ value ∈ values, value.IsSpelled := by
  induction areValues with
  | one isLiteral =>
      exact List.forall_mem_singleton.mpr (isLiteral.isSpelled lexical.head)
  | more isLiteral _ _ ih =>
      exact List.forall_mem_cons.mpr
        ⟨isLiteral.isSpelled lexical.head, ih lexical.tail.tail⟩

theorem IsTail.fitsNegation {keyword : Kind} {denote : Field → Bool → Expr}
    (isTail : IsTail keyword tokens denote) (lexical : AreLexical tokens)
    {subject : Field} (spelled : isWord subject.name.toList) (negated : Bool) :
    (denote subject negated).FitsNegation := by
  have named : ∀ name ∈ [subject], isWord name.name.toList :=
    List.forall_mem_singleton.mpr spelled
  cases isTail with
  | between _ isLow _ isHigh =>
      have lowShaped := isLow.wellShaped lexical.tail.head
      have highShaped := isHigh.wellShaped lexical.tail.tail.tail.head
      exact ⟨Expr.wellShaped_of_children ⟨isLow.isBare, isHigh.isBare⟩
        ⟨named, nofun⟩ (List.forall_mem_cons.mpr
          ⟨lowShaped, List.forall_mem_singleton.mpr highShaped⟩), rfl⟩
  | like _ isPattern =>
      have shaped := isPattern.isOperand.wellShaped lexical.tail.head
      exact ⟨Expr.wellShaped_of_children isPattern.isFieldOrString ⟨named, nofun⟩
        (List.forall_mem_singleton.mpr shaped), rfl⟩
  | member _ _ areValues _ =>
      have areSpelled := areValues.areSpelled lexical.tail.tail.left
      exact ⟨Expr.wellShaped_of_children areValues.ne_nil ⟨named, areSpelled⟩ nofun,
        rfl⟩

theorem IsSimple.fitsNegation (isSimple : IsSimple tokens expression)
    (lexical : AreLexical tokens) : expression.FitsNegation := by
  cases isSimple with
  | tailed subjectKind _ isTail =>
      have isWordLike := isWordLike_subject isTail subjectKind
      exact isTail.fitsNegation lexical.tail.right
        (lexical.head.isWord_text isWordLike) _
  | isNull subjectKind =>
      have spelled := lexical.head.isWord_text (subjectKind ▸ rfl)
      exact ⟨Expr.wellShaped_of_children trivial
        ⟨List.forall_mem_singleton.mpr spelled, nofun⟩ nofun, rfl⟩
  | comparison isLeft _ isRight =>
      have leftShaped := isLeft.wellShaped lexical.head
      have rightShaped := isRight.wellShaped lexical.tail.right.head
      exact ⟨Expr.wellShaped_of_children ⟨isLeft.isBare, isRight.isBare⟩
        ⟨nofun, nofun⟩ (List.forall_mem_cons.mpr
          ⟨leftShaped, List.forall_mem_singleton.mpr rightShaped⟩), rfl⟩

theorem IsNotSubject.fitsNegation (isNotSubject : IsNotSubject tokens expression)
    (lexical : AreLexical tokens) : expression.FitsNegation := by
  cases isNotSubject with
  | intro subjectKind isTail =>
      exact isTail.fitsNegation lexical.tail
        (lexical.head.isWord_text (subjectKind ▸ rfl)) _

end Parts

mutual

theorem IsCondition.fitsGroup {tokens : List Token} {body : Expr} :
    IsCondition tokens body → AreLexical tokens → body.FitsGroup
  | .intro areTerms, lexical =>
      Expr.fitsGroup_anyOf areTerms.ne_nil areTerms.not_isDisjunction
        (areTerms.fitGroup lexical)

theorem AreTerms.fitGroup {tokens : List Token} {terms : List Expr} :
    AreTerms tokens terms → AreLexical tokens → ∀ term ∈ terms, term.FitsGroup
  | .one isTerm, lexical =>
      List.forall_mem_singleton.mpr (isTerm.fitsGroup lexical)
  | .more isTerm _ areTerms, lexical =>
      List.forall_mem_cons.mpr ⟨isTerm.fitsGroup lexical.left,
        areTerms.fitGroup lexical.right.tail⟩

theorem IsTerm.fitsGroup {tokens : List Token} {term : Expr} :
    IsTerm tokens term → AreLexical tokens → term.FitsGroup
  | .intro areFactors, lexical =>
      Expr.fitsGroup_allOf areFactors.ne_nil areFactors.areNoJunctions
        (areFactors.fitGroup lexical)

theorem AreFactors.fitGroup {tokens : List Token} {factors : List Expr} :
    AreFactors tokens factors → AreLexical tokens →
      ∀ factor ∈ factors, factor.FitsGroup
  | .one isFactor, lexical =>
      List.forall_mem_singleton.mpr (isFactor.fitsGroup lexical)
  | .more isFactor _ areFactors, lexical =>
      List.forall_mem_cons.mpr ⟨isFactor.fitsGroup lexical.left,
        areFactors.fitGroup lexical.right.tail⟩

theorem IsFactor.fitsGroup {tokens : List Token} {factor : Expr} :
    IsFactor tokens factor → AreLexical tokens → factor.FitsGroup
  | .primary isPrimary, lexical => (isPrimary.fitsNegation lexical).fitsGroup
  | .negation _ isPrimary, lexical =>
      (isPrimary.fitsNegation lexical.tail).negation
  | .negatedSubject _ isNotSubject, lexical =>
      (isNotSubject.fitsNegation lexical.tail).negation

theorem IsPrimary.fitsNegation {tokens : List Token} {primary : Expr} :
    IsPrimary tokens primary → AreLexical tokens → primary.FitsNegation
  | .simple isSimple, lexical => isSimple.fitsNegation lexical
  | .group _ isCondition _, lexical =>
      (isCondition.fitsGroup lexical.tail.left).group

end

end Grammar

end Criteria
