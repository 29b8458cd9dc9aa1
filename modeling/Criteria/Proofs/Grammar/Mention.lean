import Criteria.Expr.Traverse
import Criteria.Proofs.Grammar.Dispatch
import Criteria.Proofs.Token.Lexical

/-!
# Mentions

What a condition mentions: its literals, and the fields with names that are no
keywords.  A walk through the tree comes upon them in the order in which they
stand among the tokens.
-/

namespace Criteria

/-- A field or a literal. -/
inductive Mention where
  | field (field : Field)
  | literal (value : Literal)

namespace Mention

/-- The field, if one is mentioned. -/
def field? : Mention → Option Field
  | field subject => some subject
  | literal _ => none

/-- The literal, if one is mentioned. -/
def literal? : Mention → Option Literal
  | field _ => none
  | literal value => some value

end Mention

/-- A field is mentioned unless its name is a keyword. -/
def Field.mentions (subject : Field) : List Mention :=
  if Kind.ofWord subject.name = .identifier then [.field subject] else []

namespace Token

/-- What a token mentions. -/
def mentions (token : Token) : List Mention :=
  if token.kind = .identifier then [.field ⟨token.text⟩]
  else token.literal?.toList.map .literal

variable {token : Token}

theorem mentions_of_kind {kind : Kind} (isKind : token.kind = kind)
    (noField : kind ≠ .identifier) (noLiteral : kind.literalKind? = none) :
    token.mentions = [] := by
  simp [mentions, isKind, noField, literal?, noLiteral]

/-- A subject mentions what the field does that is made of it. -/
theorem IsLexical.mentions_subject (lexical : token.IsLexical)
    (isWordLike : token.kind.isWordLike)
    (noLiteral : token.kind.literalKind? = none) :
    Field.mentions ⟨token.text⟩ = token.mentions := by
  rw [Field.mentions, lexical.ofWord_text isWordLike]
  split
  · rename_i isIdentifier
    rw [Token.mentions, if_pos isIdentifier]
  · rename_i noIdentifier
    exact (mentions_of_kind rfl noIdentifier noLiteral).symm

end Token

namespace Expr

/-- What the outermost construct mentions itself. -/
def ownMentions (expression : Expr) : List Mention :=
  expression.ownFields.flatMap Field.mentions ++
    expression.ownLiterals.map .literal

/-- What an expression mentions, in the order of a walk. -/
def mentions (expression : Expr) : List Mention :=
  expression.walk.flatMap ownMentions

theorem mentions_eq (expression : Expr) :
    expression.mentions =
      expression.ownMentions ++ expression.children.flatMap mentions := by
  rw [mentions, walk_eq_cons, List.flatMap_cons, List.flatMap_assoc]
  rfl

theorem mentions_anyOf (terms : List Expr) :
    (anyOf terms).mentions = terms.flatMap mentions := by
  unfold anyOf
  split
  · simp
  · exact mentions_eq _

theorem mentions_allOf (factors : List Expr) :
    (allOf factors).mentions = factors.flatMap mentions := by
  unfold allOf
  split
  · simp
  · exact mentions_eq _

section Constructs

variable (subject : Field) (negated : Bool) (left right inner : Expr)

@[simp] theorem mentions_field : (field subject).mentions = subject.mentions := by
  simp [mentions_eq, ownMentions, ownFields, ownLiterals, children]

@[simp] theorem mentions_literal (value : Literal) :
    (literal value).mentions = [.literal value] := by
  simp [mentions_eq, ownMentions, ownFields, ownLiterals, children]

@[simp] theorem mentions_comparison (op : RelOp) :
    (comparison left op right).mentions = left.mentions ++ right.mentions := by
  simp [mentions_eq (comparison ..), ownMentions, ownFields, ownLiterals, children]

@[simp] theorem mentions_between :
    (between subject negated left right).mentions =
      subject.mentions ++ (left.mentions ++ right.mentions) := by
  simp [mentions_eq (between ..), ownMentions, ownFields, ownLiterals, children]

@[simp] theorem mentions_like :
    (like subject negated inner).mentions = subject.mentions ++ inner.mentions := by
  simp [mentions_eq (like ..), ownMentions, ownFields, ownLiterals, children]

@[simp] theorem mentions_member (values : List Literal) :
    (member subject negated values).mentions =
      subject.mentions ++ values.map .literal := by
  simp [mentions_eq, ownMentions, ownFields, ownLiterals, children]

@[simp] theorem mentions_isNull :
    (isNull subject negated).mentions = subject.mentions := by
  simp [mentions_eq, ownMentions, ownFields, ownLiterals, children]

@[simp] theorem mentions_negation : (negation inner).mentions = inner.mentions := by
  simp [mentions_eq (negation _), ownMentions, ownFields, ownLiterals, children]

@[simp] theorem mentions_group : (group inner).mentions = inner.mentions := by
  simp [mentions_eq (group _), ownMentions, ownFields, ownLiterals, children]

end Constructs

theorem filterMap_literal?_mentions (expression : Expr) :
    expression.mentions.filterMap Mention.literal? = expression.literals := by
  have own : ∀ part : Expr,
      part.ownMentions.filterMap Mention.literal? = part.ownLiterals := by
    intro part
    have noLiteral : ∀ subject : Field,
        subject.mentions.filterMap Mention.literal? = [] := by
      intro subject
      unfold Field.mentions
      split <;> rfl
    simp [ownMentions, List.filterMap_flatMap, noLiteral, List.filterMap_map,
      Function.comp_def, Mention.literal?]
  simp only [mentions, literals, List.filterMap_flatMap, own]

theorem filterMap_field?_mentions (expression : Expr) :
    expression.mentions.filterMap Mention.field? =
      expression.fields.filter fun subject =>
        Kind.ofWord subject.name = .identifier := by
  have ofFields : ∀ subjects : List Field,
      (subjects.flatMap Field.mentions).filterMap Mention.field? =
        subjects.filter fun subject => Kind.ofWord subject.name = .identifier := by
    intro subjects
    induction subjects with
    | nil => rfl
    | cons subject subjects ih =>
        rw [List.flatMap_cons, List.filterMap_append, ih, Field.mentions,
          List.filter_cons]
        split
        · rename_i unreserved
          simp [unreserved, Mention.field?]
        · rename_i reserved
          simp [reserved]
  have own : ∀ part : Expr,
      part.ownMentions.filterMap Mention.field? =
        part.ownFields.filter fun subject =>
          Kind.ofWord subject.name = .identifier := by
    intro part
    rw [ownMentions, List.filterMap_append, ofFields, List.filterMap_map]
    simp [Function.comp_def, Mention.field?]
  simp only [mentions, fields, List.filterMap_flatMap, List.filter_flatMap, own]

end Expr

namespace Token

theorem filterMap_literal?_mentions (tokens : List Token) :
    (tokens.flatMap mentions).filterMap Mention.literal? =
      tokens.filterMap literal? := by
  induction tokens with
  | nil => rfl
  | cons token tokens ih =>
      rw [List.flatMap_cons, List.filterMap_append, ih, List.filterMap_cons,
        mentions]
      split
      · rename_i isIdentifier
        simp [literal?, isIdentifier, Kind.literalKind?, Mention.literal?]
      · cases token.literal? <;> simp [Mention.literal?]

theorem filterMap_field?_mentions (tokens : List Token) :
    (tokens.flatMap mentions).filterMap Mention.field? =
      (tokens.filter fun token => token.kind = .identifier).map
        fun token => ⟨token.text⟩ := by
  induction tokens with
  | nil => rfl
  | cons token tokens ih =>
      rw [List.flatMap_cons, List.filterMap_append, ih, List.filter_cons, mentions]
      split
      · rename_i isIdentifier
        simp [isIdentifier, Mention.field?]
      · rename_i noIdentifier
        cases token.literal? <;> simp [noIdentifier, Mention.field?]

end Token

namespace Grammar

section Leaves

variable {token : Token} {tokens : List Token} {expression : Expr}

theorem IsLiteral.mentions {value : Literal} (isLiteral : IsLiteral token value) :
    token.mentions = [.literal value] := by
  have found := Token.literal?_eq_some_iff.mpr isLiteral
  have noField : token.kind ≠ .identifier := by
    intro isIdentifier
    simp [Token.literal?, isIdentifier, Kind.literalKind?] at found
  simp [Token.mentions, noField, found]

theorem IsOperand.mentions (isOperand : IsOperand token expression)
    (lexical : token.IsLexical) : expression.mentions = token.mentions := by
  cases isOperand with
  | field kind =>
      rw [Expr.mentions_field]
      exact lexical.mentions_subject (kind ▸ rfl) (kind ▸ rfl)
  | literal isLiteral => rw [Expr.mentions_literal, isLiteral.mentions]

theorem IsPattern.mentions (isPattern : IsPattern token expression)
    (lexical : token.IsLexical) : expression.mentions = token.mentions := by
  cases isPattern with
  | field kind => exact (IsOperand.field kind).mentions lexical
  | string kind => exact (IsOperand.literal (.string kind)).mentions lexical

theorem IsValues.mentions {values : List Literal}
    (areValues : IsValues tokens values) :
    tokens.flatMap Token.mentions = values.map .literal := by
  induction areValues with
  | one isLiteral => simp [isLiteral.mentions]
  | more isLiteral isComma _ ih =>
      have comma := Token.mentions_of_kind isComma nofun rfl
      simp [isLiteral.mentions, comma, ih]

theorem IsOptionalNot.mentions {negated : Bool}
    (optionalNot : IsOptionalNot tokens negated) :
    tokens.flatMap Token.mentions = [] := by
  cases optionalNot with
  | absent => rfl
  | present isNot => simp [Token.mentions_of_kind isNot nofun rfl]

theorem IsRelOp.mentions {op : RelOp}
    (isOperator : IsRelOp (tokens.map Token.kind) op) :
    tokens.flatMap Token.mentions = [] := by
  generalize areKinds : tokens.map Token.kind = kinds at isOperator
  have silent : ∀ kind ∈ kinds,
      kind ≠ .identifier ∧ kind.literalKind? = none := by
    cases isOperator <;> simp [Kind.literalKind?]
  rw [List.flatMap_eq_nil_iff]
  intro token member
  have isKind : token.kind ∈ kinds := areKinds ▸ List.mem_map_of_mem member
  exact Token.mentions_of_kind rfl (silent _ isKind).1 (silent _ isKind).2

/-- A predicate with a tail mentions its subject, then what the tail does. -/
theorem IsTail.mentions {keyword : Kind} {denote : Field → Bool → Expr}
    (isTail : IsTail keyword tokens denote) (lexical : AreLexical tokens)
    (subject : Field) (negated : Bool) :
    (denote subject negated).mentions =
      subject.mentions ++ tokens.flatMap Token.mentions := by
  cases isTail with
  | between kind isLow isAnd isHigh =>
      have keyword := Token.mentions_of_kind kind nofun rfl
      have low := isLow.mentions lexical.tail.head
      have connective := Token.mentions_of_kind isAnd nofun rfl
      have high := isHigh.mentions lexical.tail.tail.tail.head
      simp [keyword, low, connective, high]
  | like kind isPattern =>
      have keyword := Token.mentions_of_kind kind nofun rfl
      have pattern := isPattern.mentions lexical.tail.head
      simp [keyword, pattern]
  | member kind isOpening areValues isClosing =>
      have keyword := Token.mentions_of_kind kind nofun rfl
      have opening := Token.mentions_of_kind isOpening nofun rfl
      have closing := Token.mentions_of_kind isClosing nofun rfl
      simp [keyword, opening, areValues.mentions, closing]

theorem IsTail.literalKind?_keyword {keyword : Kind}
    {denote : Field → Bool → Expr} (isTail : IsTail keyword tokens denote) :
    keyword.literalKind? = none := by
  cases isTail <;> rfl

theorem IsSimple.mentions (isSimple : IsSimple tokens expression)
    (lexical : AreLexical tokens) :
    expression.mentions = tokens.flatMap Token.mentions := by
  cases isSimple with
  | @tailed _ subject _ _ _ _ subjectKind optionalNot isTail =>
      have noLiteral : subject.kind.literalKind? = none := by
        rcases subjectKind with isIdentifier | isKeyword
        · exact isIdentifier ▸ rfl
        · exact isKeyword ▸ isTail.literalKind?_keyword
      have isWordLike := isWordLike_subject isTail subjectKind
      have named := lexical.head.mentions_subject isWordLike noLiteral
      rw [isTail.mentions lexical.tail.right, named]
      simp [optionalNot.mentions]
  | isNull subjectKind isKind optionalNot nullKind =>
      have named := lexical.head.mentions_subject (subjectKind ▸ rfl)
        (subjectKind ▸ rfl)
      have isWord := Token.mentions_of_kind isKind nofun rfl
      have nullWord := Token.mentions_of_kind nullKind nofun rfl
      simp [named, isWord, optionalNot.mentions, nullWord]
  | comparison isLeft isOperator isRight =>
      have left := isLeft.mentions lexical.head
      have right := isRight.mentions lexical.tail.right.head
      simp [left, isOperator.mentions, right]

theorem IsNotSubject.mentions (isNotSubject : IsNotSubject tokens expression)
    (lexical : AreLexical tokens) :
    expression.mentions = tokens.flatMap Token.mentions := by
  cases isNotSubject with
  | intro subjectKind isTail =>
      have named := lexical.head.mentions_subject (subjectKind ▸ rfl)
        (subjectKind ▸ rfl)
      rw [isTail.mentions lexical.tail, named, List.flatMap_cons]

end Leaves

mutual

theorem IsCondition.mentions {tokens : List Token} {body : Expr} :
    IsCondition tokens body → AreLexical tokens →
      body.mentions = tokens.flatMap Token.mentions
  | .intro areTerms, lexical => by
      rw [Expr.mentions_anyOf, areTerms.mentions lexical]

theorem AreTerms.mentions {tokens : List Token} {terms : List Expr} :
    AreTerms tokens terms → AreLexical tokens →
      terms.flatMap Expr.mentions = tokens.flatMap Token.mentions
  | .one isTerm, lexical => by
      rw [List.flatMap_singleton, isTerm.mentions lexical]
  | .more isTerm isSeparator areTerms, lexical => by
      have term := isTerm.mentions lexical.left
      have separator := Token.mentions_of_kind isSeparator nofun rfl
      have others := areTerms.mentions lexical.right.tail
      simp [term, separator, others]

theorem IsTerm.mentions {tokens : List Token} {term : Expr} :
    IsTerm tokens term → AreLexical tokens →
      term.mentions = tokens.flatMap Token.mentions
  | .intro areFactors, lexical => by
      rw [Expr.mentions_allOf, areFactors.mentions lexical]

theorem AreFactors.mentions {tokens : List Token} {factors : List Expr} :
    AreFactors tokens factors → AreLexical tokens →
      factors.flatMap Expr.mentions = tokens.flatMap Token.mentions
  | .one isFactor, lexical => by
      rw [List.flatMap_singleton, isFactor.mentions lexical]
  | .more isFactor isSeparator areFactors, lexical => by
      have factor := isFactor.mentions lexical.left
      have separator := Token.mentions_of_kind isSeparator nofun rfl
      have others := areFactors.mentions lexical.right.tail
      simp [factor, separator, others]

theorem IsFactor.mentions {tokens : List Token} {factor : Expr} :
    IsFactor tokens factor → AreLexical tokens →
      factor.mentions = tokens.flatMap Token.mentions
  | .primary isPrimary, lexical => isPrimary.mentions lexical
  | .negation isNot isPrimary, lexical => by
      have inner := isPrimary.mentions lexical.tail
      have negation := Token.mentions_of_kind isNot nofun rfl
      simp [inner, negation]
  | .negatedSubject isNot isNotSubject, lexical => by
      have inner := isNotSubject.mentions lexical.tail
      have negation := Token.mentions_of_kind isNot nofun rfl
      simp [inner, negation]

theorem IsPrimary.mentions {tokens : List Token} {primary : Expr} :
    IsPrimary tokens primary → AreLexical tokens →
      primary.mentions = tokens.flatMap Token.mentions
  | .simple isSimple, lexical => isSimple.mentions lexical
  | .group isOpening isCondition isClosing, lexical => by
      have inner := isCondition.mentions lexical.tail.left
      have opening := Token.mentions_of_kind isOpening nofun rfl
      have closing := Token.mentions_of_kind isClosing nofun rfl
      simp [inner, opening, closing]

end

section Conditions

variable {tokens : List Token} {body : Expr}

/-- The literals of a condition are those among its tokens. -/
theorem IsCondition.literals_eq (isCondition : IsCondition tokens body)
    (lexical : AreLexical tokens) :
    body.literals = tokens.filterMap Token.literal? := by
  rw [← Expr.filterMap_literal?_mentions, isCondition.mentions lexical,
    Token.filterMap_literal?_mentions]

/-- The fields with unreserved names are made of the identifiers. -/
theorem IsCondition.unreserved_fields_eq (isCondition : IsCondition tokens body)
    (lexical : AreLexical tokens) :
    (body.fields.filter fun subject => Kind.ofWord subject.name = .identifier) =
      (tokens.filter fun token => token.kind = .identifier).map
        fun token => ⟨token.text⟩ := by
  rw [← Expr.filterMap_field?_mentions, isCondition.mentions lexical,
    Token.filterMap_field?_mentions]

end Conditions

end Grammar

end Criteria
