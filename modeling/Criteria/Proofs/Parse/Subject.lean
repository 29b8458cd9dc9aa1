import Criteria.Expr.Equality
import Criteria.Proofs.Grammar.Subject
import Criteria.Proofs.Parse.RoundTrip

/-!
# Names in what is read

A field in a tree that was read has no keyword for its name, unless it is the
subject of a predicate that the reader chose by a keyword: a spelling of that
keyword, or of the `NOT` that led the reader to it.
-/

namespace Criteria

open Grammar

theorem namesProperly_of_parse {limit : Limit} {expression : String}
    {tree : Expr} (parsed : parseWithin limit expression = .ok tree) :
    tree.NamesProperly ∧ tree.ownFields = [] := by
  obtain ⟨body, rfl, isCondition⟩ := isCondition_of_parse parsed
  have bodyProper := isCondition.namesProperly (areLexical_tokenize expression)
  have nameless : (Expr.filter body).ownFields = [] := rfl
  exact ⟨Expr.namesProperly_of_children nameless
    (List.forall_mem_singleton.mpr bodyProper), nameless⟩

/-- Every field in a tree that was read stands below another part and has a
name that is allowed there, and so does each of its occurrences. -/
theorem subjectsAllowed_of_parse {limit : Limit} {expression : String}
    {tree : Expr} (parsed : parseWithin limit expression = .ok tree) :
    tree.SubjectsAllowed ∧
      ∀ subject ∈ tree.fields, ∃ parent ∈ tree.walk,
        ∃ part ∈ parent.children,
          subject ∈ part.ownFields ∧ parent.AllowsSubject part subject := by
  obtain ⟨proper, nameless⟩ := namesProperly_of_parse parsed
  refine ⟨proper.inside, ?_⟩
  intro subject occurs
  rcases Expr.exists_parent_of_mem_fields occurs with own | below
  · rw [nameless] at own
    cases own
  · obtain ⟨parent, inside, part, isPart, own⟩ := below
    exact ⟨parent, inside, part, isPart, own,
      proper.inside parent inside part isPart subject own⟩

theorem subjectsAllowed_of_parse_of_negation :
    parseWithin .standard "NOT NOT LIKE 'x' OR in IN (1) AND a = b" =
        .ok (.filter (.disjunction [
          .negation (.like ⟨"NOT"⟩ false (.literal ⟨.string, "x"⟩)),
          .conjunction [.member ⟨"in"⟩ false [⟨.numeric, "1"⟩],
            .comparison (.field ⟨"a"⟩) .eq (.field ⟨"b"⟩)]])) ∧
      (Expr.negation (.like ⟨"NOT"⟩ false (.literal ⟨.string, "x"⟩))).AllowsSubject
        (.like ⟨"NOT"⟩ false (.literal ⟨.string, "x"⟩)) ⟨"NOT"⟩ := by
  have parsed : parseWithin .standard "NOT NOT LIKE 'x' OR in IN (1) AND a = b" =
      .ok (.filter (.disjunction [
        .negation (.like ⟨"NOT"⟩ false (.literal ⟨.string, "x"⟩)),
        .conjunction [.member ⟨"in"⟩ false [⟨.numeric, "1"⟩],
          .comparison (.field ⟨"a"⟩) .eq (.field ⟨"b"⟩)]])) := by
    apply eq_ok_of_toOption
    decide +kernel
  refine ⟨parsed, (subjectsAllowed_of_parse parsed).1 _ ?_ _ ?_ _ ?_⟩
  · exact .tail _ (.tail _ (.head _))
  · exact .head _
  · exact .head _

/-- The subject of a `BETWEEN` may be that word itself. -/
theorem not_all_fields_isUnreserved :
    ¬ ∀ (expression : String) (limit : Limit) (tree : Expr),
        parseWithin limit expression = .ok tree →
          ∀ subject ∈ tree.fields, subject.IsUnreserved := by
  intro unreserved
  have parsed : parseWithin .standard "BETWEEN BETWEEN 1 AND 2" =
      .ok (.filter (.between ⟨"BETWEEN"⟩ false (.literal ⟨.numeric, "1"⟩)
        (.literal ⟨.numeric, "2"⟩))) := by
    apply eq_ok_of_toOption
    decide +kernel
  have occurs : (⟨"BETWEEN"⟩ : Field) ∈
      (Expr.filter (.between ⟨"BETWEEN"⟩ false (.literal ⟨.numeric, "1"⟩)
        (.literal ⟨.numeric, "2"⟩))).fields := .head _
  have noKeyword : Kind.ofWord "BETWEEN" = .identifier :=
    unreserved _ _ _ parsed _ occurs
  exact absurd noKeyword (by decide +kernel)

end Criteria
