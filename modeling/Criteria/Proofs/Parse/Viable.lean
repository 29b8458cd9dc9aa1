import Criteria.Proofs.Grammar.Viable
import Criteria.Proofs.Parse.Language
import Criteria.Proofs.Session.Reuse
import Criteria.Proofs.Token.Written

/-!
# Diagnostics lie behind a viable prefix

The text in front of a diagnostic can be completed to a condition.  The missing
tokens are written behind it, each after a blank, so that the tokens in front
stay what they are.
-/

namespace Criteria

open Grammar

/-- The texts of samples, each with a blank in front. -/
def writeSamples (kinds : List Kind) : List Char :=
  kinds.flatMap fun kind => ' ' :: kind.sampleText

section Sample

variable {kind : Kind} {kinds : List Kind}

theorem sampleText_of_isKeyword (isKeyword : kind.isKeyword) :
    kind.sampleText = kind.describe.toList := by
  cases kind <;> first | rfl | cases isKeyword

/-- A sample is a lexeme of its kind, and no quote is needed to spell it. -/
theorem lexical_sampleText (sampled : kind.hasSample) :
    Lexical ⟨kind, kind.sampleText⟩ ∧ '\'' ∉ kind.sampleText := by
  rcases Bool.or_eq_true_iff.mp sampled with isKeyword | listed
  · rw [sampleText_of_isKeyword isKeyword]
    have isWord := isWord_describe isKeyword
    constructor
    · have lexical := Lexical.word isWord
      rwa [String.ofList_toList, Kind.ofWord_describe isKeyword] at lexical
    · revert isKeyword
      cases kind <;> decide
  · have listed : kind = .identifier ∨ kind = .integer ∨ kind = .equals ∨
        kind = .openParen ∨ kind = .closeParen := by
      simpa using listed
    have isSymbol (symbol : Char) (member : symbol ∈ symbols) :
        Lexical ⟨.ofSymbol symbol, [symbol]⟩ :=
      .symbol member
    rcases listed with rfl | rfl | rfl | rfl | rfl
    · have isWord : isWord ['a'] := by decide
      have isIdentifier : Kind.ofWord (String.ofList ['a']) = .identifier := by
        decide
      exact ⟨isIdentifier ▸ .word isWord, by decide⟩
    · have isNumeral : IsNumeral (['1'] ++ afterPoints []) 0 false :=
        .plain (by decide) (by simp)
      exact ⟨.integer isNumeral, by decide⟩
    · exact ⟨isSymbol '=' (by decide), by decide⟩
    · exact ⟨isSymbol '(' (by decide), by decide⟩
    · exact ⟨isSymbol ')' (by decide), by decide⟩

theorem isLexical_sample (sampled : kind.hasSample) :
    kind.sample.IsLexical := by
  right
  rw [Kind.sample, String.toList_ofList]
  exact (lexical_sampleText sampled).1

theorem kind_of_hasSample (sampled : kind.hasSample) :
    kind ≠ .string ∧ kind ≠ .unclassified := by
  constructor
  · intro same
    subst same
    cases sampled
  · intro same
    subst same
    cases sampled

theorem spelling_sample (sampled : kind.hasSample) :
    kind.sample.spelling = kind.sampleText := by
  have noString : kind.sample.kind ≠ .string := (kind_of_hasSample sampled).1
  rw [Token.spelling, Kind.spell_of_ne noString, Kind.sample,
    String.toList_ofList]

theorem areLexical_samples (sampled : kinds.all Kind.hasSample) :
    AreLexical (kinds.map Kind.sample) := by
  intro token member
  obtain ⟨kind, present, rfl⟩ := List.mem_map.mp member
  exact isLexical_sample (List.all_eq_true.mp sampled kind present)

/-- Written samples are scanned as the samples, in other places. -/
theorem scans_writeSamples (sampled : kinds.all Kind.hasSample) :
    Scans (writeSamples kinds) (AreAlike (kinds.map Kind.sample)) := by
  induction kinds with
  | nil =>
      apply scans_nil.mono
      intro tokens none
      rw [none]
      exact .nil
  | cons first others ih =>
      obtain ⟨isSample, areSamples⟩ : first.hasSample ∧ others.all Kind.hasSample :=
        by simpa using sampled
      have scansFirst := (isLexical_sample isSample).scans
        (kind_of_hasSample isSample).2
      rw [spelling_sample isSample] at scansFirst
      have boundary : isBoundary (writeSamples others) := by
        cases others with
        | nil => rfl
        | cons => rfl
      apply (scansFirst.append (ih areSamples) boundary).blank.mono
      intro tokens parts
      obtain ⟨_, back, rfl, ⟨token, rfl, alike⟩, areAlike⟩ := parts
      exact .cons alike areAlike

theorem detached_writeSamples (sampled : kinds.all Kind.hasSample) :
    Detached (writeSamples kinds) where
  boundary := by
    cases kinds with
    | nil => rfl
    | cons => rfl
  noQuote := by
    intro quoted
    obtain ⟨kind, present, inside⟩ := List.mem_flatMap.mp quoted
    have isSample := List.all_eq_true.mp sampled kind present
    rcases List.mem_cons.mp inside with isBlank | inText
    · exact absurd isBlank (by decide)
    · exact (lexical_sampleText isSample).2 inText

end Sample

/-- The grammar does not look at the places of tokens. -/
theorem isCondition_of_areAlike {left right : List Token} {body : Expr}
    (leftLexical : AreLexical left) (rightLexical : AreLexical right)
    (alike : AreAlike left right) (isCondition : IsCondition left body) :
    IsCondition right body := by
  have regular := Dispatch.regular_standard
  have leftReads := (Rule.result_filter_iff regular leftLexical).mpr
    ⟨body, rfl, isCondition, Nat.lt_succ_self body.nesting⟩
  have outcome := (Rule.placeless_filter Dispatch.placeless_standard
    body.nesting.succ left right alike).result
  have same := outcome.eq
  rw [leftReads] at same
  obtain ⟨_, equal, derived, _⟩ :=
    (Rule.result_filter_iff regular rightLexical).mp same.symm
  cases equal
  exact derived

/-- When the tokens in front of a place are viable, the text in front of it can
be completed to a condition. -/
theorem Viable.exists_completion {expression : String} {used rest : List Token}
    (viable : Viable IsCondition used) (split : tokenize expression = used ++ rest) :
    placeOf expression rest ≤ expression.length ∧
      ∃ more body, IsCondition
        (tokenize (String.ofList
          (expression.toList.take (placeOf expression rest) ++ more))) body := by
  obtain ⟨missing, sampled, body, isCondition⟩ := viable
  obtain ⟨front, back, whole, divides⟩ := exists_divides split
  have place : placeOf expression rest = front.length := divides.placeOf_eq whole
  have kept : expression.toList.take front.length = front := by
    rw [whole, List.take_left]
  -- The samples are read behind the front in other places than their own, which
  -- the grammar does not look at.
  have tokens := divides.tokenize_kept (detached_writeSamples sampled)
  rw [place, kept]
  constructor
  · rw [← String.length_toList, whole, List.length_append]
    exact Nat.le_add_right _ _
  refine ⟨writeSamples missing, body, ?_⟩
  have usedLexical : AreLexical used := by
    have lexical := areLexical_tokenize expression
    rw [split] at lexical
    exact lexical.left
  apply isCondition_of_areAlike _ (areLexical_tokenize _) _ isCondition
  · exact usedLexical.append (areLexical_samples sampled)
  · have usedAlike : AreAlike used used :=
      List.forall₂_same.mpr fun _ _ => ⟨rfl, rfl⟩
    rw [tokens]
    exact List.rel_append usedAlike
      ((scans_writeSamples sampled).scan front.length)

/-- A diagnostic never lies past the first offending token: the text in front of
it is the beginning of a condition. -/
theorem exists_completion_of_error (limit : Limit) (expression : String)
    (diagnostic : Diagnostic)
    (failed : parseWithin limit expression = .error diagnostic) :
    diagnostic.offset ≤ expression.length ∧
      ∃ (more : String) (tree : Expr),
        parseWithin .unbounded
          (String.ofList (expression.toList.take diagnostic.offset) ++ more) =
            .ok tree := by
  obtain ⟨fault, outcome, rfl⟩ := Session.parse_eq_error_iff.mp failed
  rw [Session.reading_ofText] at outcome
  rw [Session.reading_ofText, Fault.offset_diagnose]
  obtain ⟨used, split, viable⟩ := Rule.fails_filter Dispatch.regular_standard
    (limit.allowance (tokenize expression).length) _ fault outcome
  obtain ⟨inside, more, body, isCondition⟩ := viable.exists_completion split
  refine ⟨inside, String.ofList more, .filter body, ?_⟩
  rw [String.ofList_append] at isCondition
  exact (parse_iff_of_isCondition isCondition).mpr ⟨rfl, rfl⟩

theorem eq_error_of_casesOn {α ε : Type} {outcome : Except ε α} {fault : ε}
    (same : outcome.casesOn some (fun _ => none) = some fault) :
    outcome = .error fault := by
  cases outcome with
  | ok found => cases same
  | error found =>
      cases same
      rfl

theorem exists_completion_of_unclosed_group :
    parseWithin .standard "NOT (a IN (1, b)" =
        .error ⟨.mismatch "Literal" (some "b"), 14, "NOT (a IN (1, b)"⟩ ∧
      ∃ (more : String) (tree : Expr),
        parseWithin .unbounded
          (String.ofList ("NOT (a IN (1, b)".toList.take 14) ++ more) =
            .ok tree := by
  have failed : parseWithin .standard "NOT (a IN (1, b)" =
      .error ⟨.mismatch "Literal" (some "b"), 14, "NOT (a IN (1, b)"⟩ := by
    apply eq_error_of_casesOn
    decide +kernel
  exact ⟨failed, (exists_completion_of_error .standard _ _ failed).2⟩

end Criteria
