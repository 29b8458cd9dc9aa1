import Criteria.Expr.Equality
import Criteria.Proofs.Grammar.Classified
import Criteria.Proofs.Grammar.Junction
import Criteria.Proofs.Parse.RoundTrip
import Criteria.Proofs.Parse.Viable

/-!
# Texts of conditions put together

A text that is read as a condition is scanned as one in front of any boundary,
whatever stands behind it.  Texts of conditions can therefore be put together
with `OR`, `AND`, `NOT` and parentheses, and their trees are put together
accordingly.
-/

namespace Criteria

open Grammar

variable {first second : String} {left right : Expr}

/-- A text that is read without a limit is scanned as the condition that was
read, wherever it stands. -/
theorem scans_of_parse (parsed : parseWithin .unbounded first = .ok left) :
    Scans first.toList fun written => IsCondition written left.body := by
  obtain ⟨body, rfl, isCondition⟩ := isCondition_of_parse parsed
  intro offset rest boundary
  have moved : scan offset first.toList =
      (tokenize first).map (Token.shift offset) := by
    rw [tokenize, ← scan_shift, Nat.zero_add]
  have alike := areAlike_shift offset (tokenize first)
  rw [← moved] at alike
  have written : IsCondition (scan offset first.toList) body :=
    isCondition_of_areAlike (areLexical_tokenize first)
      (areLexical_scan offset first.toList) alike isCondition
  refine ⟨scan offset first.toList, ?_, written⟩
  exact scan_append_of_classified written.areClassified boundary

/-- The tokens of two texts with a keyword between them. -/
theorem tokenize_connected {keyword : Kind} {separator : String}
    (isKeyword : keyword.isKeyword)
    (spelled : separator = " " ++ keyword.describe ++ " ")
    (firstParsed : parseWithin .unbounded first = .ok left)
    (secondParsed : parseWithin .unbounded second = .ok right) :
    ∃ front token back,
      tokenize (first ++ separator ++ second) = front ++ token :: back ∧
        IsCondition front left.body ∧ token.kind = keyword ∧
        IsCondition back right.body := by
  have scansFirst := scans_of_parse firstParsed
  have scansSecond := scans_of_parse secondParsed
  have whole : (first ++ separator ++ second).toList =
      first.toList ++
        ' ' :: (keyword.describe.toList ++ ' ' :: second.toList) := by
    simp [spelled]
  have scans := scansFirst.connected isKeyword scansSecond
  rw [← whole] at scans
  exact scans.tokenize

/-- The tokens of a text in parentheses are a group, wherever it stands. -/
theorem scans_group (parsed : parseWithin .unbounded first = .ok left) :
    Scans ('(' :: (first.toList ++ [')'])) fun written =>
      IsPrimary written (.group left.body) := by
  apply (scans_of_parse parsed).parenthesized.mono
  intro written parts
  obtain ⟨opening, tokens, closing, rfl, isOpening, isInner, isClosing⟩ := parts
  exact .group isOpening isInner isClosing

theorem isPrimary_tokenize_parenthesized
    (parsed : parseWithin .unbounded first = .ok left) :
    IsPrimary (tokenize ("(" ++ first ++ ")")) (.group left.body) := by
  have spelled : ("(" ++ first ++ ")").toList =
      '(' :: (first.toList ++ [')']) := by
    simp
  have scans := scans_group parsed
  rw [← spelled] at scans
  exact scans.tokenize

theorem isFactor_tokenize_negated
    (parsed : parseWithin .unbounded first = .ok left) :
    IsFactor (tokenize ("NOT (" ++ first ++ ")"))
      (.negation (.group left.body)) := by
  have isKeyword : Kind.notWord.isKeyword := rfl
  have spelled : ("NOT (" ++ first ++ ")").toList =
      Kind.notWord.describe.toList ++ ' ' :: '(' :: (first.toList ++ [')']) := by
    simp [Kind.describe]
  have scans := (scans_group parsed).introduced isKeyword
  rw [← spelled] at scans
  obtain ⟨token, back, tokens, isNot, isGroup⟩ := scans.tokenize
  rw [tokens]
  exact .negation isNot isGroup

/-- Conditions that are read are read together, with `OR` or `AND` between them,
and in parentheses, negated or not.  A disjunction has the terms of both.  With
`AND` the last term of the first condition and the first term of the second
become one, which has the factors of both. -/
theorem parse_composed {first second : String} {left right : Expr}
    (firstParsed : parseWithin .unbounded first = .ok left)
    (secondParsed : parseWithin .unbounded second = .ok right) :
    parseWithin .unbounded (first ++ " OR " ++ second) =
        .ok (.filter (.disjunction (left.body.terms ++ right.body.terms))) ∧
      (∃ before last initial behind, left.body.terms = before ++ [last] ∧
        right.body.terms = initial :: behind ∧
        parseWithin .unbounded (first ++ " AND " ++ second) =
          .ok (.filter (.anyOf (before ++
            .conjunction (last.factors ++ initial.factors) :: behind)))) ∧
      parseWithin .unbounded ("(" ++ first ++ ")") =
        .ok (.filter (.group left.body)) ∧
      parseWithin .unbounded ("NOT (" ++ first ++ ")") =
        .ok (.filter (.negation (.group left.body))) := by
  have isOrWord : Kind.orWord.isKeyword := rfl
  have isAndWord : Kind.andWord.isKeyword := rfl
  have orSpelled : " OR " = " " ++ Kind.orWord.describe ++ " " := rfl
  have andSpelled : " AND " = " " ++ Kind.andWord.describe ++ " " := rfl
  refine ⟨?_, ?_, ?_, ?_⟩
  · obtain ⟨front, token, back, tokens, isFront, isOr, isBack⟩ :=
      tokenize_connected isOrWord orSpelled firstParsed secondParsed
    have joined := isFront.disjoin isOr isBack
    rw [← tokens] at joined
    exact (parse_iff_of_isCondition joined).mpr ⟨rfl, rfl⟩
  · obtain ⟨front, token, back, tokens, isFront, isAnd, isBack⟩ :=
      tokenize_connected isAndWord andSpelled firstParsed secondParsed
    obtain ⟨before, last, initial, behind, lastTerm, firstTerm, joined⟩ :=
      isFront.conjoin isAnd isBack
    rw [← tokens] at joined
    exact ⟨before, last, initial, behind, lastTerm, firstTerm,
      (parse_iff_of_isCondition joined).mpr ⟨rfl, rfl⟩⟩
  · have isPrimary := isPrimary_tokenize_parenthesized firstParsed
    have grouped := (IsFactor.primary isPrimary).isCondition
    exact (parse_iff_of_isCondition grouped).mpr ⟨rfl, rfl⟩
  · have negated := (isFactor_tokenize_negated firstParsed).isCondition
    exact (parse_iff_of_isCondition negated).mpr ⟨rfl, rfl⟩

theorem parse_composed_of_between :
    parseWithin .unbounded "a = 'it''s' OR b BETWEEN 1 AND 2" =
        .ok (.filter (.disjunction [
          .comparison (.field ⟨"a"⟩) .eq (.literal ⟨.string, "it's"⟩),
          .between ⟨"b"⟩ false (.literal ⟨.numeric, "1"⟩)
            (.literal ⟨.numeric, "2"⟩)])) ∧
      parseWithin .unbounded "NOT NOT IN ('x') AND c IS NULL" =
        .ok (.filter (.conjunction [
          .negation (.member ⟨"NOT"⟩ false [⟨.string, "x"⟩]),
          .isNull ⟨"c"⟩ false])) ∧
      parseWithin .unbounded
          ("a = 'it''s' OR b BETWEEN 1 AND 2" ++ " OR " ++
            "NOT NOT IN ('x') AND c IS NULL") =
        .ok (.filter (.disjunction [
          .comparison (.field ⟨"a"⟩) .eq (.literal ⟨.string, "it's"⟩),
          .between ⟨"b"⟩ false (.literal ⟨.numeric, "1"⟩)
            (.literal ⟨.numeric, "2"⟩),
          .conjunction [
            .negation (.member ⟨"NOT"⟩ false [⟨.string, "x"⟩]),
            .isNull ⟨"c"⟩ false]])) := by
  have firstParsed : parseWithin .unbounded "a = 'it''s' OR b BETWEEN 1 AND 2" =
      .ok (.filter (.disjunction [
        .comparison (.field ⟨"a"⟩) .eq (.literal ⟨.string, "it's"⟩),
        .between ⟨"b"⟩ false (.literal ⟨.numeric, "1"⟩)
          (.literal ⟨.numeric, "2"⟩)])) := by
    apply eq_ok_of_toOption
    decide +kernel
  have secondParsed : parseWithin .unbounded "NOT NOT IN ('x') AND c IS NULL" =
      .ok (.filter (.conjunction [
        .negation (.member ⟨"NOT"⟩ false [⟨.string, "x"⟩]),
        .isNull ⟨"c"⟩ false])) := by
    apply eq_ok_of_toOption
    decide +kernel
  exact ⟨firstParsed, secondParsed, (parse_composed firstParsed secondParsed).1⟩

end Criteria
