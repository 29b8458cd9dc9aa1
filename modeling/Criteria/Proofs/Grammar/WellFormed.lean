import Criteria.Expr.WellFormed
import Criteria.Proofs.Grammar.Render

/-!
# Well-formed trees are denoted

For every well-formed tree there are lexemes of the lexical grammar from which
the grammar derives it.  The tokens are built along the tree: the leaves give
tokens of their own, and keywords and symbols stand between them.
-/

namespace Criteria

section Words

theorem toUpper_eq_or_isAlpha (character : Char) :
    character.toUpper = character ∨ character.isAlpha := by
  by_cases lower : character.isLower
  · right
    exact isAlpha_iff.mpr (.inr (isLower_iff.mp lower))
  · left
    apply dif_neg
    intro both
    exact lower (isLower_iff.mpr both)

theorem isWordStart_of_toUpper {character : Char}
    (start : isWordStart character.toUpper) : isWordStart character := by
  rcases toUpper_eq_or_isAlpha character with same | letter
  · rwa [same] at start
  · simp [isWordStart, letter]

theorem isWordPart_of_toUpper {character : Char}
    (part : isWordPart character.toUpper) : isWordPart character := by
  rcases toUpper_eq_or_isAlpha character with same | letter
  · rwa [same] at part
  · simp [isWordPart, Char.isAlphanum, letter]

/-- Letter case does not decide what is a word. -/
theorem isWord_of_foldCase {text : String} (folded : isWord (foldCase text)) :
    isWord text.toList := by
  unfold foldCase at folded
  generalize text.toList = characters at folded ⊢
  cases characters with
  | nil => cases folded
  | cons first others =>
      obtain ⟨start, parts⟩ := Bool.and_eq_true_iff.mp folded
      apply Bool.and_eq_true_iff.mpr
      refine ⟨isWordStart_of_toUpper start, List.all_eq_true.mpr ?_⟩
      intro character member
      have upper := List.all_eq_true.mp parts _ (List.mem_map_of_mem member)
      exact isWordPart_of_toUpper upper

theorem Kind.ofWord_congr {left right : String} (same : sameWord left right) :
    ofWord left = ofWord right := by
  have folded : foldCase left = foldCase right := by simpa [sameWord] using same
  unfold ofWord sameWord
  rw [folded]

/-- A keyword in any letter case is a token of its kind. -/
theorem isLexical_sameWord {text : String} {keyword : Kind}
    (isKeyword : keyword.isKeyword) (same : sameWord text keyword.describe)
    (offset : Nat) : Token.IsLexical ⟨keyword, text, offset⟩ := by
  have folded : foldCase text = foldCase keyword.describe := by
    simpa [sameWord] using same
  have form : isWord text.toList := by
    apply isWord_of_foldCase
    rw [folded]
    revert isKeyword
    cases keyword <;> decide
  right
  have lexical := Lexical.word form
  rwa [String.ofList_toList, Kind.ofWord_congr same,
    Kind.ofWord_describe isKeyword] at lexical

end Words

section Leaves

theorem Field.IsPlain.isLexical {field : Field} (plain : field.IsPlain)
    (offset : Nat) : Token.IsLexical ⟨.identifier, field.name, offset⟩ := by
  obtain ⟨form, kind⟩ := plain
  right
  have lexical := Lexical.word form
  rwa [String.ofList_toList, kind] at lexical

theorem Literal.IsSpelled.denoted {literal : Literal}
    (spelled : literal.IsSpelled) :
    ∃ token, token.IsLexical ∧ Grammar.IsLiteral token literal := by
  obtain ⟨kind, raw⟩ := literal
  cases kind with
  | string => exact ⟨⟨.string, raw, 0⟩, .inr (.string _), .string rfl⟩
  | numeric =>
      obtain ⟨points, hasExponent, form, few⟩ := spelled
      by_cases plain : points = 0 ∧ hasExponent = false
      · obtain ⟨rfl, rfl⟩ := plain
        exact ⟨⟨.integer, raw, 0⟩, .inr (.integer form), .numeric (.inl rfl)⟩
      · have marked : points = 1 ∨ hasExponent = true := by
          cases hasExponent with
          | true => exact .inr rfl
          | false =>
              left
              have some : points ≠ 0 := by simpa using plain
              omega
        exact ⟨⟨.float, raw, 0⟩, .inr (.float form few marked), .numeric (.inr rfl)⟩
  | boolean =>
      have isBoolean : sameWord raw Kind.trueWord.describe ∨
          sameWord raw Kind.falseWord.describe := by
        have foldTrue : foldCase "true" = foldCase Kind.trueWord.describe := by
          decide
        have foldFalse : foldCase "false" = foldCase Kind.falseWord.describe := by
          decide
        unfold sameWord
        rw [← foldTrue, ← foldFalse]
        by_cases isTrue : sameWord raw "true"
        · exact .inl isTrue
        · right
          by_cases isFalse : sameWord raw "false"
          · exact isFalse
          · simp [IsSpelled, asBool?, isTrue, isFalse] at spelled
      rcases isBoolean with isTrue | isFalse
      · exact ⟨⟨.trueWord, raw, 0⟩, isLexical_sameWord rfl isTrue 0,
          .boolean (.inl rfl)⟩
      · exact ⟨⟨.falseWord, raw, 0⟩, isLexical_sameWord rfl isFalse 0,
          .boolean (.inr rfl)⟩

theorem Expr.IsOperand.denoted {operand : Expr} (isOperand : operand.IsOperand) :
    ∃ token, token.IsLexical ∧ Grammar.IsOperand token operand := by
  cases isOperand with
  | @field field plain =>
      exact ⟨⟨.identifier, field.name, 0⟩, plain.isLexical 0, .field rfl⟩
  | literal spelled =>
      obtain ⟨token, lexical, isLiteral⟩ := spelled.denoted
      exact ⟨token, lexical, .literal isLiteral⟩

theorem Expr.IsPattern.denoted {pattern : Expr} (isPattern : pattern.IsPattern) :
    ∃ token, token.IsLexical ∧ Grammar.IsPattern token pattern := by
  cases isPattern with
  | @field field plain =>
      exact ⟨⟨.identifier, field.name, 0⟩, plain.isLexical 0, .field rfl⟩
  | @string literal kind =>
      obtain ⟨_, raw⟩ := literal
      cases kind
      exact ⟨⟨.string, raw, 0⟩, .inr (.string _), .string rfl⟩

end Leaves

/-- There are lexemes to which the relation assigns the value. -/
def Denoted {α : Type} (relation : List Token → α → Prop) (value : α) : Prop :=
  ∃ tokens, AreLexical tokens ∧ relation tokens value

/-- Values with a separator between them are denoted if each of them is. -/
theorem denoted_separated {α : Type} {separator : Token}
    {single : List Token → α → Prop} {several : List Token → List α → Prop}
    (separatorLexical : separator.IsLexical)
    (one : ∀ {tokens value}, single tokens value → several tokens [value])
    (more : ∀ {tokens others value values}, single tokens value →
      several others values →
      several (tokens ++ separator :: others) (value :: values))
    {values : List α} (someValue : values ≠ [])
    (areDenoted : ∀ value ∈ values, Denoted single value) :
    Denoted several values := by
  induction values with
  | nil => exact (someValue rfl).elim
  | cons value values ih =>
      obtain ⟨isDenoted, othersDenoted⟩ := List.forall_mem_cons.mp areDenoted
      obtain ⟨tokens, lexical, isSingle⟩ := isDenoted
      cases values with
      | nil => exact ⟨tokens, lexical, one isSingle⟩
      | cons second values =>
          have someOther : second :: values ≠ [] := List.cons_ne_nil _ _
          obtain ⟨others, othersLexical, areSeveral⟩ := ih someOther othersDenoted
          exact ⟨tokens ++ separator :: others,
            lexical.append (othersLexical.cons separatorLexical),
            more isSingle areSeveral⟩

namespace Grammar

/-- The keyword as a token. -/
def keywordToken (keyword : Kind) : Token :=
  ⟨keyword, keyword.describe, 0⟩

/-- The symbol as a token. -/
def symbolToken (symbol : Char) : Token :=
  ⟨.ofSymbol symbol, String.ofList [symbol], 0⟩

theorem areLexical_parenthesized {tokens : List Token}
    (lexical : AreLexical tokens) :
    AreLexical (symbolToken '(' :: (tokens ++ [symbolToken ')'])) := by
  have isOpening : (symbolToken '(').IsLexical :=
    isLexical_symbol (by simp [symbols]) 0
  have isClosing : (symbolToken ')').IsLexical :=
    isLexical_symbol (by simp [symbols]) 0
  exact (lexical.append (areLexical_one isClosing)).cons isOpening

theorem denoted_relOp (op : RelOp) :
    Denoted (fun tokens op => IsRelOp (tokens.map Token.kind) op) op := by
  refine ⟨op.symbol.toList.map symbolToken, ?_, ?_⟩
  · intro token member
    obtain ⟨symbol, present, rfl⟩ := List.mem_map.mp member
    exact isLexical_symbol (mem_symbols_of_relOp op symbol present) 0
  · change IsRelOp ((op.symbol.toList.map symbolToken).map Token.kind) op
    rw [List.map_map]
    exact isRelOp_symbol op

theorem denoted_optionalNot (negated : Bool) : Denoted IsOptionalNot negated := by
  cases negated with
  | false => exact ⟨[], areLexical_nil, .absent⟩
  | true =>
      exact ⟨[keywordToken .notWord], areLexical_one (isLexical_keyword rfl 0),
        .present rfl⟩

theorem denoted_values {values : List Literal} (someValue : values ≠ [])
    (spelled : ∀ value ∈ values, value.IsSpelled) : Denoted IsValues values := by
  have isComma : (symbolToken ',').IsLexical :=
    isLexical_symbol (by simp [symbols]) 0
  have single : ∀ value ∈ values, Denoted
      (fun tokens value => ∃ token, tokens = [token] ∧ IsLiteral token value)
      value := by
    intro value member
    obtain ⟨token, lexical, isLiteral⟩ := (spelled value member).denoted
    exact ⟨[token], areLexical_one lexical, token, rfl, isLiteral⟩
  apply denoted_separated isComma _ _ someValue single
  · intro tokens value isSingle
    obtain ⟨token, rfl, isLiteral⟩ := isSingle
    exact .one isLiteral
  · intro tokens others value values isSingle areValues
    obtain ⟨token, rfl, isLiteral⟩ := isSingle
    exact .more isLiteral rfl areValues

theorem denoted_tailed {keyword : Kind} {tail : List Token}
    {denote : Field → Bool → Expr} {subject : Field} (plain : subject.IsPlain)
    (negated : Bool) (lexical : AreLexical tail)
    (isTail : IsTail keyword tail denote) :
    Denoted IsSimple (denote subject negated) := by
  obtain ⟨nots, notsLexical, optionalNot⟩ := denoted_optionalNot negated
  exact ⟨⟨.identifier, subject.name, 0⟩ :: (nots ++ tail),
    (notsLexical.append lexical).cons (plain.isLexical 0),
    .tailed (.inl rfl) optionalNot isTail⟩

theorem denoted_predicate {predicate : Expr} (isPredicate : predicate.IsPredicate) :
    Denoted IsSimple predicate := by
  cases isPredicate with
  | comparison isLeft isRight =>
      obtain ⟨leftToken, leftLexical, isLeft⟩ := isLeft.denoted
      obtain ⟨rightToken, rightLexical, isRight⟩ := isRight.denoted
      obtain ⟨operator, areLexical, isOperator⟩ := denoted_relOp _
      exact ⟨leftToken :: (operator ++ [rightToken]),
        (areLexical.append (areLexical_one rightLexical)).cons leftLexical,
        .comparison isLeft isOperator isRight⟩
  | @between subject negated low high plain isLow isHigh =>
      obtain ⟨lowToken, lowLexical, isLow⟩ := isLow.denoted
      obtain ⟨highToken, highLexical, isHigh⟩ := isHigh.denoted
      have isTail : IsTail .betweenWord
          [keywordToken .betweenWord, lowToken, keywordToken .andWord, highToken]
          fun subject negated => .between subject negated low high :=
        .between rfl isLow rfl isHigh
      have bounds : AreLexical [lowToken, keywordToken .andWord, highToken] :=
        ((areLexical_one highLexical).cons (isLexical_keyword rfl 0)).cons
          lowLexical
      exact denoted_tailed plain negated (bounds.cons (isLexical_keyword rfl 0))
        isTail
  | @like subject negated pattern plain isPattern =>
      obtain ⟨patternToken, patternLexical, isPattern⟩ := isPattern.denoted
      have isTail : IsTail .likeWord [keywordToken .likeWord, patternToken]
          fun subject negated => .like subject negated pattern :=
        .like rfl isPattern
      exact denoted_tailed plain negated
        ((areLexical_one patternLexical).cons (isLexical_keyword rfl 0)) isTail
  | @member subject negated values plain someValue spelled =>
      obtain ⟨tokens, areLexical, areValues⟩ := denoted_values someValue spelled
      have isTail : IsTail .inWord
          (keywordToken .inWord :: symbolToken '(' ::
            (tokens ++ [symbolToken ')']))
          fun subject negated => .member subject negated values :=
        .member rfl rfl areValues rfl
      have inner := areLexical_parenthesized areLexical
      exact denoted_tailed plain negated (inner.cons (isLexical_keyword rfl 0))
        isTail
  | @isNull subject negated plain =>
      obtain ⟨nots, areLexical, optionalNot⟩ := denoted_optionalNot negated
      have isNull : AreLexical [keywordToken .nullWord] :=
        areLexical_one (isLexical_keyword rfl 0)
      have behind : AreLexical
          (keywordToken .isWord :: (nots ++ [keywordToken .nullWord])) :=
        (areLexical.append isNull).cons (isLexical_keyword rfl 0)
      exact ⟨⟨.identifier, subject.name, 0⟩ :: keywordToken .isWord ::
          (nots ++ [keywordToken .nullWord]),
        behind.cons (plain.isLexical 0), .isNull rfl rfl optionalNot rfl⟩

theorem denoted_terms {terms : List Expr} (someTerm : terms ≠ [])
    (areDenoted : ∀ term ∈ terms, Denoted IsTerm term) :
    Denoted AreTerms terms := by
  have isSeparator : (keywordToken .orWord).IsLexical := isLexical_keyword rfl 0
  apply denoted_separated isSeparator _ _ someTerm areDenoted
  · intro tokens term isTerm
    exact .one isTerm
  · intro tokens others term terms isTerm areTerms
    exact .more isTerm rfl areTerms

theorem denoted_factors {factors : List Expr} (someFactor : factors ≠ [])
    (areDenoted : ∀ factor ∈ factors, Denoted IsFactor factor) :
    Denoted AreFactors factors := by
  have isSeparator : (keywordToken .andWord).IsLexical := isLexical_keyword rfl 0
  apply denoted_separated isSeparator _ _ someFactor areDenoted
  · intro tokens factor isFactor
    exact .one isFactor
  · intro tokens others factor factors isFactor areFactors
    exact .more isFactor rfl areFactors

end Grammar

namespace Expr

open Grammar

theorem anyOf_of_several {terms : List Expr} (several : 2 ≤ terms.length) :
    anyOf terms = .disjunction terms := by
  cases terms with
  | nil => rfl
  | cons first others =>
      cases others with
      | nil => simp at several
      | cons second others => rfl

theorem allOf_of_several {factors : List Expr} (several : 2 ≤ factors.length) :
    allOf factors = .conjunction factors := by
  cases factors with
  | nil => rfl
  | cons first others =>
      cases others with
      | nil => simp at several
      | cons second others => rfl

theorem ne_nil_of_several {operands : List Expr} (several : 2 ≤ operands.length) :
    operands ≠ [] :=
  List.ne_nil_of_length_pos (Nat.lt_of_succ_lt several)

mutual

theorem IsBody.denoted {body : Expr} : IsBody body → Denoted IsCondition body
  | .disjunction several areTerms => by
      obtain ⟨tokens, lexical, areWritten⟩ := denoted_terms
        (ne_nil_of_several several)
        fun term member => (areTerms term member).denoted
      rw [← anyOf_of_several several]
      exact ⟨tokens, lexical, .intro areWritten⟩
  | .term isTerm => by
      obtain ⟨tokens, lexical, isWritten⟩ := isTerm.denoted
      exact ⟨tokens, lexical, .intro (.one isWritten)⟩

theorem IsTerm.denoted {term : Expr} : IsTerm term → Denoted Grammar.IsTerm term
  | .conjunction several areFactors => by
      obtain ⟨tokens, lexical, areWritten⟩ := denoted_factors
        (ne_nil_of_several several)
        fun factor member => (areFactors factor member).denoted
      rw [← allOf_of_several several]
      exact ⟨tokens, lexical, .intro areWritten⟩
  | .factor isFactor => by
      obtain ⟨tokens, lexical, isWritten⟩ := isFactor.denoted
      exact ⟨tokens, lexical, .intro (.one isWritten)⟩

theorem IsFactor.denoted {factor : Expr} :
    IsFactor factor → Denoted Grammar.IsFactor factor
  | .negation isPrimary => by
      obtain ⟨tokens, lexical, isWritten⟩ := isPrimary.denoted
      exact ⟨keywordToken .notWord :: tokens,
        lexical.cons (isLexical_keyword rfl 0), .negation rfl isWritten⟩
  | .primary isPrimary => by
      obtain ⟨tokens, lexical, isWritten⟩ := isPrimary.denoted
      exact ⟨tokens, lexical, .primary isWritten⟩

theorem IsPrimary.denoted {primary : Expr} :
    IsPrimary primary → Denoted Grammar.IsPrimary primary
  | .group isBody => by
      obtain ⟨tokens, lexical, isWritten⟩ := isBody.denoted
      exact ⟨symbolToken '(' :: (tokens ++ [symbolToken ')']),
        areLexical_parenthesized lexical, .group rfl isWritten rfl⟩
  | .predicate isPredicate => by
      obtain ⟨tokens, lexical, isSimple⟩ := denoted_predicate isPredicate
      exact ⟨tokens, lexical, .simple isSimple⟩

end

end Expr

end Criteria
