import Criteria.Expr.Equality
import Criteria.Proofs.Grammar.Render
import Criteria.Proofs.Grammar.WellFormed
import Criteria.Proofs.Parse.Language

/-!
# Reading canonical texts

A tree that is denoted by lexemes is read back from its canonical text, within
every limit that allows its nesting.  This holds of the trees that reading
gives, and of all well-formed trees.  The canonical text of a tree that was read
has the tokens it was read from, up to the spellings that normalizing changes.
-/

namespace Criteria

open Grammar

variable {limit : Limit} {body : Expr}

theorem isCondition_tokenize_render (denoted : Denoted IsCondition body) :
    IsCondition (tokenize body.render) body := by
  obtain ⟨tokens, lexical, isCondition⟩ := denoted
  exact (isCondition.scans lexical).tokenize.1

/-- What is read is read again from its canonical text, within the same limit. -/
theorem parse_render_of_parse {expression : String} {tree : Expr}
    (parsed : (Session.ofText expression limit).parse.1 = .ok tree) :
    (Session.ofText tree.render limit).parse.1 = .ok tree := by
  obtain ⟨body, rfl, isCondition⟩ := isCondition_of_parse parsed
  obtain ⟨-, allowed⟩ := (parse_iff_of_isCondition isCondition).mp parsed
  have denoted : Denoted IsCondition body :=
    ⟨tokenize expression, areLexical_tokenize expression, isCondition⟩
  have written := isCondition_tokenize_render denoted
  rw [Expr.render]
  exact (parse_iff_of_isCondition written).mpr ⟨rfl, allowed⟩

theorem eq_ok_of_toOption {α ε : Type} {outcome : Except ε α} {value : α}
    (same : outcome.toOption = some value) : outcome = .ok value := by
  cases outcome with
  | ok found =>
      cases same
      rfl
  | error fault => cases same

/-- Rendering is stable: what is read within a limit is read again from its
canonical text within this limit, and normalizing twice is normalizing once. -/
theorem render_stable (limit : Limit) (expression : String) :
    (∀ tree, parseWithin limit expression = .ok tree →
      parseWithin limit tree.render = .ok tree) ∧
    (∀ text, normalize expression = .ok text → normalize text = .ok text) := by
  constructor
  · intro tree parsed
    exact parse_render_of_parse parsed
  · intro text normalized
    unfold normalize parse parseWithin at *
    cases parsed : (Session.ofText expression .standard).parse.1 with
    | error diagnostic =>
        rw [parsed] at normalized
        cases normalized
    | ok tree =>
        rw [parsed] at normalized
        cases normalized
        rw [parse_render_of_parse parsed]
        rfl

theorem render_stable_of_keyword_subject :
    normalize "NOT NOT BETWEEN 1 AND 2 or a != 'it''s'" =
        .ok "NOT NOT BETWEEN 1 AND 2 OR a <> 'it''s'" ∧
      normalize "NOT NOT BETWEEN 1 AND 2 OR a <> 'it''s'" =
        .ok "NOT NOT BETWEEN 1 AND 2 OR a <> 'it''s'" := by
  have normalized : normalize "NOT NOT BETWEEN 1 AND 2 or a != 'it''s'" =
      .ok "NOT NOT BETWEEN 1 AND 2 OR a <> 'it''s'" := by
    apply eq_ok_of_toOption
    decide +kernel
  exact ⟨normalized, (render_stable .standard _).2 _ normalized⟩

/-- Normalizing keeps the tokens: once `!=` is replaced by `<>`, the tokens of an
accepted text are those of its canonical text, in the same order, with the same
kinds and, except for the letter case of keywords, the same texts. -/
theorem sameReading_of_parse {expression : String} {tree : Expr}
    (parsed : parseWithin limit expression = .ok tree) :
    List.Forall₂ Token.SameReading (Token.uniteUnequal (tokenize expression))
      (tokenize tree.render) := by
  obtain ⟨body, rfl, isCondition⟩ := isCondition_of_parse parsed
  have lexical := areLexical_tokenize expression
  have respelled := (isCondition.scans lexical).tokenize.2
  rw [Expr.render]
  exact respelled.sameReading lexical (areLexical_tokenize _)

theorem sameReading_of_parse_of_unequal :
    parseWithin (.levels 2) "not Not in (True) or a!='x'" =
        .ok (.filter (.disjunction
          [.negation (.member ⟨"Not"⟩ false [⟨.boolean, "True"⟩]),
            .comparison (.field ⟨"a"⟩) .ne (.literal ⟨.string, "x"⟩)])) ∧
      List.Forall₂ Token.SameReading
        (Token.uniteUnequal (tokenize "not Not in (True) or a!='x'"))
        (tokenize (Expr.filter (.disjunction
          [.negation (.member ⟨"Not"⟩ false [⟨.boolean, "True"⟩]),
            .comparison (.field ⟨"a"⟩) .ne
              (.literal ⟨.string, "x"⟩)])).render) := by
  have parsed : parseWithin (.levels 2) "not Not in (True) or a!='x'" =
      .ok (.filter (.disjunction
        [.negation (.member ⟨"Not"⟩ false [⟨.boolean, "True"⟩]),
          .comparison (.field ⟨"a"⟩) .ne (.literal ⟨.string, "x"⟩)])) := by
    apply eq_ok_of_toOption
    decide +kernel
  exact ⟨parsed, sameReading_of_parse parsed⟩

/-- Every well-formed tree is read back from its canonical text if the limit
allows its nesting, and otherwise the text is refused as too deep. -/
theorem parse_render_of_wellFormed (limit : Limit) {tree : Expr}
    (wellFormed : tree.WellFormed) :
    (limit.allows (tree.nesting + 1) →
      parseWithin limit tree.render = .ok tree) ∧
    (limit.allows (tree.nesting + 1) = false →
      ∃ diagnostic, parseWithin limit tree.render = .error diagnostic ∧
        diagnostic.SaysTooDeep limit tree.render) := by
  cases wellFormed with
  | filter isBody =>
      have written := isCondition_tokenize_render isBody.denoted
      rw [Expr.nesting, Expr.render]
      constructor
      · intro allowed
        exact (parse_iff_of_isCondition written).mpr ⟨rfl, allowed⟩
      · intro excessive
        exact parse_tooDeep_of_isCondition written excessive

theorem parse_render_of_quoted_group :
    parseWithin (.levels 2) "(a = '''')" =
        .ok (.filter (.group (.comparison (.field ⟨"a"⟩) .eq
          (.literal ⟨.string, "'"⟩)))) ∧
      ∃ diagnostic,
        parseWithin (.levels 1) "(a = '''')" = .error diagnostic ∧
          diagnostic.SaysTooDeep (.levels 1) "(a = '''')" := by
  have plain : Field.IsPlain ⟨"a"⟩ := ⟨by decide, by decide⟩
  have wellFormed : Expr.WellFormed (.filter (.group (.comparison
      (.field ⟨"a"⟩) .eq (.literal ⟨.string, "'"⟩)))) :=
    .filter (.term (.factor (.primary (.group (.term (.factor (.primary
      (.predicate (.comparison (.field plain) (.literal trivial))))))))))
  constructor
  · exact (parse_render_of_wellFormed (.levels 2) wellFormed).1 (by decide +kernel)
  · exact (parse_render_of_wellFormed (.levels 1) wellFormed).2 (by decide +kernel)

end Criteria
