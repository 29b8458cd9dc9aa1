import Criteria.Expr.Equality
import Criteria.Proofs.Grammar.Mention
import Criteria.Proofs.Grammar.Shape
import Criteria.Proofs.Parse.RoundTrip

/-!
# Trees that are read

Every tree that is read has the shape, and it holds the literals and the
identifiers of the text in their order.
-/

namespace Criteria

open Grammar

variable {limit : Limit} {expression : String} {tree : Expr}

/-- The tokens that are literals, beside the literals that they are. -/
theorem forall₂_literal? {tokens : List Token} (lexical : AreLexical tokens) :
    List.Forall₂
      (fun token value => token.literal? = some value ∧
        (value.isFloatLike ↔ token.kind = .float))
      (tokens.filter fun token => token.literal?.isSome)
      (tokens.filterMap Token.literal?) := by
  induction tokens with
  | nil => exact .nil
  | cons token tokens ih =>
      have others := ih lexical.tail
      cases found : token.literal? with
      | none => simpa [found] using others
      | some value =>
          have isLiteral := Token.literal?_eq_some_iff.mp found
          have looks := isLiteral.isFloatLike_iff lexical.head
          simpa [found] using ⟨looks, others⟩

/-- What is read is a root above a condition that has the shape at every place,
and exactly the literals made of floats look like floats. -/
theorem shaped_of_parse (parsed : parseWithin limit expression = .ok tree) :
    tree.Shaped ∧
      List.Forall₂
        (fun token value => token.literal? = some value ∧
          (value.isFloatLike ↔ token.kind = .float))
        ((tokenize expression).filter fun token => token.literal?.isSome)
        tree.literals := by
  obtain ⟨body, rfl, isCondition⟩ := isCondition_of_parse parsed
  have lexical := areLexical_tokenize expression
  constructor
  · exact ⟨body, rfl, (isCondition.fitsGroup lexical).wellShaped⟩
  · have sameLiterals : (Expr.filter body).literals = body.literals := rfl
    rw [sameLiterals, isCondition.literals_eq lexical]
    exact forall₂_literal? lexical

theorem shaped_of_parse_of_float :
    parseWithin (.levels 3) "not (a >= 1.5) or In in (TRUE, 7)" =
        .ok (.filter (.disjunction
          [.negation (.group (.comparison (.field ⟨"a"⟩) .ge
              (.literal ⟨.numeric, "1.5"⟩))),
            .member ⟨"In"⟩ false [⟨.boolean, "TRUE"⟩, ⟨.numeric, "7"⟩]])) ∧
      (Expr.filter (.disjunction
        [.negation (.group (.comparison (.field ⟨"a"⟩) .ge
            (.literal ⟨.numeric, "1.5"⟩))),
          .member ⟨"In"⟩ false [⟨.boolean, "TRUE"⟩, ⟨.numeric, "7"⟩]])).Shaped ∧
      List.Forall₂
        (fun token value => token.literal? = some value ∧
          (value.isFloatLike ↔ token.kind = .float))
        ((tokenize "not (a >= 1.5) or In in (TRUE, 7)").filter fun token =>
          token.literal?.isSome)
        [⟨.numeric, "1.5"⟩, ⟨.boolean, "TRUE"⟩, ⟨.numeric, "7"⟩] := by
  have parsed : parseWithin (.levels 3) "not (a >= 1.5) or In in (TRUE, 7)" =
      .ok (.filter (.disjunction
        [.negation (.group (.comparison (.field ⟨"a"⟩) .ge
            (.literal ⟨.numeric, "1.5"⟩))),
          .member ⟨"In"⟩ false [⟨.boolean, "TRUE"⟩, ⟨.numeric, "7"⟩]])) := by
    apply eq_ok_of_toOption
    decide +kernel
  exact ⟨parsed, shaped_of_parse parsed⟩

/-- The literals of a tree that is read are those among the tokens, and its
fields, but for those named by keywords, are the identifiers. -/
theorem mentions_of_parse (parsed : parseWithin limit expression = .ok tree) :
    tree.literals = (tokenize expression).filterMap Token.literal? ∧
      (tree.fields.filter fun subject =>
          Kind.ofWord subject.name = .identifier).map Field.name =
        ((tokenize expression).filter fun token =>
          token.kind = .identifier).map Token.text := by
  obtain ⟨body, rfl, isCondition⟩ := isCondition_of_parse parsed
  have lexical := areLexical_tokenize expression
  have sameLiterals : (Expr.filter body).literals = body.literals := rfl
  have sameFields : (Expr.filter body).fields = body.fields := rfl
  rw [sameLiterals, sameFields]
  constructor
  · exact isCondition.literals_eq lexical
  · rw [isCondition.unreserved_fields_eq lexical, List.map_map]
    rfl

theorem mentions_of_parse_of_keyword_subject :
    parseWithin .standard "BETWEEN BETWEEN x AND 2 OR y IN ('a', true)" =
        .ok (.filter (.disjunction
          [.between ⟨"BETWEEN"⟩ false (.field ⟨"x"⟩) (.literal ⟨.numeric, "2"⟩),
            .member ⟨"y"⟩ false [⟨.string, "a"⟩, ⟨.boolean, "true"⟩]])) ∧
      [⟨.numeric, "2"⟩, ⟨.string, "a"⟩, ⟨.boolean, "true"⟩] =
        (tokenize "BETWEEN BETWEEN x AND 2 OR y IN ('a', true)").filterMap
          Token.literal? ∧
      ([⟨"BETWEEN"⟩, ⟨"x"⟩, ⟨"y"⟩].filter fun subject : Field =>
          Kind.ofWord subject.name = .identifier).map Field.name =
        ((tokenize "BETWEEN BETWEEN x AND 2 OR y IN ('a', true)").filter
          fun token => token.kind = .identifier).map Token.text := by
  have parsed :
      parseWithin .standard "BETWEEN BETWEEN x AND 2 OR y IN ('a', true)" =
        .ok (.filter (.disjunction
          [.between ⟨"BETWEEN"⟩ false (.field ⟨"x"⟩) (.literal ⟨.numeric, "2"⟩),
            .member ⟨"y"⟩ false [⟨.string, "a"⟩, ⟨.boolean, "true"⟩]])) := by
    apply eq_ok_of_toOption
    decide +kernel
  exact ⟨parsed, mentions_of_parse parsed⟩

end Criteria
