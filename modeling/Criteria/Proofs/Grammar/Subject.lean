import Criteria.Expr.Subject
import Criteria.Proofs.Grammar.Render

/-!
# Keywords as subjects

A token is a keyword if its text spells one.  So the fields that the grammar
derives have no keywords for names, apart from the subjects for which it asks
for a keyword itself.
-/

namespace Criteria

namespace Expr

/-- The subject is no keyword, or that of the outermost construct, and so is
each subject inside, or it is allowed below a negation. -/
structure NamesProperly (part : Expr) : Prop where
  own : ∀ subject ∈ part.ownFields,
    subject.IsUnreserved ∨ part.EchoesKeyword subject
  inside : part.SubjectsAllowed

variable {part : Expr}

theorem subjectsAllowed_of_children
    (properly : ∀ child ∈ part.children, child.NamesProperly) :
    part.SubjectsAllowed := by
  apply subjectsAllowed_iff.mpr
  constructor
  · intro child isChild subject own
    rcases (properly child isChild).own subject own with unreserved | echoes
    · exact .inl unreserved
    · exact .inr (.inl echoes)
  · intro child isChild
    exact (properly child isChild).inside

theorem namesProperly_of_children (nameless : part.ownFields = [])
    (properly : ∀ child ∈ part.children, child.NamesProperly) :
    part.NamesProperly where
  own := by
    rw [nameless]
    nofun
  inside := subjectsAllowed_of_children properly

theorem namesProperly_anyOf {terms : List Expr}
    (properly : ∀ term ∈ terms, term.NamesProperly) :
    (anyOf terms).NamesProperly := by
  unfold anyOf
  split
  · exact properly _ List.mem_cons_self
  · exact namesProperly_of_children rfl properly

theorem namesProperly_allOf {factors : List Expr}
    (properly : ∀ factor ∈ factors, factor.NamesProperly) :
    (allOf factors).NamesProperly := by
  unfold allOf
  split
  · exact properly _ List.mem_cons_self
  · exact namesProperly_of_children rfl properly

end Expr

namespace Grammar

section Predicates

variable {token : Token} {tokens : List Token} {expression : Expr}

theorem isUnreserved_of_identifier (lexical : token.IsLexical)
    (kind : token.kind = .identifier) : Field.IsUnreserved ⟨token.text⟩ := by
  rw [Field.IsUnreserved, lexical.ofWord_text (by rw [kind]; rfl), kind]

theorem IsOperand.namesProperly (isOperand : IsOperand token expression)
    (lexical : token.IsLexical) : expression.NamesProperly := by
  cases isOperand with
  | field kind =>
      constructor
      · intro subject own
        rw [List.mem_singleton.mp own]
        exact .inl (isUnreserved_of_identifier lexical kind)
      · exact Expr.subjectsAllowed_of_children nofun
  | literal => exact Expr.namesProperly_of_children rfl nofun

section Tail

variable {keyword : Kind} {denote : Field → Bool → Expr}
  (isTail : IsTail keyword tokens denote) (subject : Field) (negated : Bool)

include isTail

theorem IsTail.ownFields_denote : (denote subject negated).ownFields = [subject] := by
  cases isTail <;> rfl

theorem IsTail.keyword?_denote :
    (denote subject negated).keyword? = some keyword := by
  cases isTail <;> rfl

theorem IsTail.isNegated_denote : (denote subject negated).isNegated = negated := by
  cases isTail <;> rfl

theorem IsTail.subjectsAllowed (lexical : AreLexical tokens) :
    (denote subject negated).SubjectsAllowed := by
  apply Expr.subjectsAllowed_of_children
  cases isTail with
  | between _ isLow _ isHigh =>
      have lowProper := isLow.namesProperly lexical.tail.head
      have highProper := isHigh.namesProperly lexical.tail.tail.tail.head
      exact List.forall_mem_cons.mpr
        ⟨lowProper, List.forall_mem_singleton.mpr highProper⟩
  | like _ isPattern =>
      exact List.forall_mem_singleton.mpr
        (isPattern.isOperand.namesProperly lexical.tail.head)
  | member => nofun

end Tail

theorem IsSimple.namesProperly (isSimple : IsSimple tokens expression)
    (lexical : AreLexical tokens) : expression.NamesProperly := by
  cases isSimple with
  | tailed subjectKind _ isTail =>
      refine ⟨?_, isTail.subjectsAllowed _ _ lexical.tail.right⟩
      rw [isTail.ownFields_denote, List.forall_mem_singleton]
      rcases subjectKind with isIdentifier | isKeyword
      · exact .inl (isUnreserved_of_identifier lexical.head isIdentifier)
      · right
        have isWordLike := isWordLike_subject isTail (.inr isKeyword)
        rw [Expr.EchoesKeyword, isTail.keyword?_denote,
          lexical.head.ofWord_text isWordLike, isKeyword]
  | isNull subjectKind =>
      refine ⟨?_, Expr.subjectsAllowed_of_children nofun⟩
      intro subject own
      rw [List.mem_singleton.mp own]
      exact .inl (isUnreserved_of_identifier lexical.head subjectKind)
  | comparison isLeft _ isRight =>
      have leftProper := isLeft.namesProperly lexical.head
      have rightProper := isRight.namesProperly lexical.tail.right.head
      exact Expr.namesProperly_of_children rfl (List.forall_mem_cons.mpr
        ⟨leftProper, List.forall_mem_singleton.mpr rightProper⟩)

/-- Directly below a negation the word `NOT` may be a subject. -/
theorem IsNotSubject.namesProperly_negation
    (isNotSubject : IsNotSubject tokens expression)
    (lexical : AreLexical tokens) : (Expr.negation expression).NamesProperly := by
  cases isNotSubject with
  | intro subjectKind isTail =>
      refine ⟨nofun, Expr.subjectsAllowed_iff.mpr ⟨?_, ?_⟩⟩
      · intro part isPart
        rw [List.mem_singleton.mp isPart, isTail.ownFields_denote,
          List.forall_mem_singleton]
        have isNot := lexical.head.ofWord_text (by rw [subjectKind]; rfl)
        rw [subjectKind] at isNot
        refine .inr (.inr ⟨rfl, ?_, isTail.isNegated_denote _ _, isNot⟩)
        rw [isTail.keyword?_denote]
        rfl
      · exact List.forall_mem_singleton.mpr
          (isTail.subjectsAllowed _ _ lexical.tail)

end Predicates

mutual

theorem IsCondition.namesProperly {tokens : List Token} {body : Expr} :
    IsCondition tokens body → AreLexical tokens → body.NamesProperly
  | .intro areTerms, lexical =>
      Expr.namesProperly_anyOf (areTerms.nameProperly lexical)

theorem AreTerms.nameProperly {tokens : List Token} {terms : List Expr} :
    AreTerms tokens terms → AreLexical tokens →
      ∀ term ∈ terms, term.NamesProperly
  | .one isTerm, lexical =>
      List.forall_mem_singleton.mpr (isTerm.namesProperly lexical)
  | .more isTerm _ areTerms, lexical =>
      List.forall_mem_cons.mpr ⟨isTerm.namesProperly lexical.left,
        areTerms.nameProperly lexical.right.tail⟩

theorem IsTerm.namesProperly {tokens : List Token} {term : Expr} :
    IsTerm tokens term → AreLexical tokens → term.NamesProperly
  | .intro areFactors, lexical =>
      Expr.namesProperly_allOf (areFactors.nameProperly lexical)

theorem AreFactors.nameProperly {tokens : List Token} {factors : List Expr} :
    AreFactors tokens factors → AreLexical tokens →
      ∀ factor ∈ factors, factor.NamesProperly
  | .one isFactor, lexical =>
      List.forall_mem_singleton.mpr (isFactor.namesProperly lexical)
  | .more isFactor _ areFactors, lexical =>
      List.forall_mem_cons.mpr ⟨isFactor.namesProperly lexical.left,
        areFactors.nameProperly lexical.right.tail⟩

theorem IsFactor.namesProperly {tokens : List Token} {factor : Expr} :
    IsFactor tokens factor → AreLexical tokens → factor.NamesProperly
  | .primary isPrimary, lexical => isPrimary.namesProperly lexical
  | .negation _ isPrimary, lexical =>
      Expr.namesProperly_of_children rfl
        (List.forall_mem_singleton.mpr (isPrimary.namesProperly lexical.tail))
  | .negatedSubject _ isNotSubject, lexical =>
      isNotSubject.namesProperly_negation lexical.tail

theorem IsPrimary.namesProperly {tokens : List Token} {primary : Expr} :
    IsPrimary tokens primary → AreLexical tokens → primary.NamesProperly
  | .simple isSimple, lexical => isSimple.namesProperly lexical
  | .group _ isCondition _, lexical =>
      Expr.namesProperly_of_children rfl
        (List.forall_mem_singleton.mpr (isCondition.namesProperly lexical.tail.left))

end

end Grammar

end Criteria
