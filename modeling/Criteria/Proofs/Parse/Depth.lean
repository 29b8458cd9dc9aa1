import Criteria.Proofs.Grammar.Filter
import Criteria.Proofs.Session.Reading

/-!
# The nesting limit is exact

A limit that the deepest level of a reading keeps is not noticed.  Any other
limit ends the reading at the first level beyond it, directly behind the token
that opens this level, whatever the input holds further on.
-/

namespace Criteria

/-- Where the first of the tokens begins, or the end of the input. -/
def placeOf (expression : String) : List Token → Nat
  | [] => expression.length
  | token :: _ => token.offset

theorem placeOf_eq {expression : String} {tokens : List Token} {place : Nat}
    (atToken : ∀ token ∈ tokens.head?, token.offset = place)
    (atEnd : tokens = [] → expression.length = place) :
    placeOf expression tokens = place := by
  cases tokens with
  | nil => exact atEnd rfl
  | cons first others => exact atToken first rfl

/-- A fault is diagnosed at the first token that is left. -/
theorem Fault.offset_diagnose (fault : Fault) (rest : List Token)
    (expression : String) (limit : Limit) :
    (fault.diagnose rest.head? expression limit).offset =
      placeOf expression rest := by
  cases rest with
  | nil => rfl
  | cons first others => rfl

/-- The diagnostic says that an input nests more deeply than the limit allows. -/
structure Diagnostic.SaysTooDeep (diagnostic : Diagnostic) (limit : Limit)
    (expression : String) : Prop where
  category : diagnostic.category = .form
  message : diagnostic.message =
    "maximum nesting depth " ++ toString limit.toNat ++ " exceeded"
  expression : diagnostic.expression = expression

namespace Session

variable {expression : String} {limit : Limit}

/-- With a limit that the whole depth keeps, the reading is the free one. -/
theorem reading_of_allows
    (allowed : limit.allows
      ((ofText expression .unbounded).reading .standard).height) :
    (ofText expression limit).reading .standard =
      (ofText expression .unbounded).reading .standard := by
  cases limit with
  | unbounded => rfl
  | levels count =>
      have fits : ((ofText expression .unbounded).reading .standard).height ≤
          count := by
        simpa [Limit.allows] using allowed
      exact Rule.filter_of_height_le fits

/-- The diagnostics agree as well, since the free reading is never cut short. -/
theorem parse_of_reading_eq
    (same : (ofText expression limit).reading .standard =
      (ofText expression .unbounded).reading .standard) :
    (ofText expression limit).parse.1 = (ofText expression .unbounded).parse.1 := by
  rw [parse_fst, parse_fst, same]
  cases outcome : ((ofText expression .unbounded).reading .standard).result with
  | ok tree => rfl
  | error fault =>
      cases fault with
      | expected what => rfl
      | tooDeep => exact (Rule.result_filter_ne_tooDeep outcome).elim

/-- With any other limit the reading ends at the first level beyond it. -/
theorem reading_of_not_allows
    (excessive : limit.allows
      ((ofText expression .unbounded).reading .standard).height = false) :
    ∃ excess,
      ((ofText expression .unbounded).reading .standard).FirstBeyond limit.toNat
        excess ∧
      excess.level = limit.toNat + 1 ∧
      (limit.toNat = 0 → excess.tokens = tokenize expression) ∧
      (0 < limit.toNat → ∃ before opener,
        tokenize expression = before ++ opener :: excess.tokens ∧
          isOpener opener.kind) ∧
      ((ofText expression limit).reading .standard).result = .error .tooDeep ∧
      ((ofText expression limit).reading .standard).rest = excess.tokens ∧
      ((ofText expression limit).reading .standard).height = limit.toNat + 1 := by
  cases limit with
  | unbounded => cases excessive
  | levels count =>
      have deeper : count <
          ((ofText expression .unbounded).reading .standard).height := by
        simpa [Limit.allows] using excessive
      obtain ⟨excess, first, level, failed, rest, height⟩ :=
        Rule.filter_of_lt_height deeper
      refine ⟨excess, first, level, ?_, ?_, failed, rest, height⟩
      · intro none
        have atStart : count = 0 := none
        rw [← rest, atStart]
        exact Rule.rest_filter_zero
      · intro some
        rcases Rule.filter_opening first.opened with
          ⟨_, shallow⟩ | ⟨before, opener, place, isOpening, _⟩
        · have positive : 0 < count := some
          omega
        · exact ⟨before, opener, place, isOpening⟩

theorem parse_of_tooDeep
    (failed : ((ofText expression limit).reading .standard).result =
      .error .tooDeep) :
    ∃ diagnostic, (ofText expression limit).parse.1 = .error diagnostic ∧
      diagnostic.SaysTooDeep limit expression ∧
      diagnostic.offset = placeOf expression
        ((ofText expression limit).reading .standard).rest := by
  rw [parse_fst, failed]
  exact ⟨_, rfl, ⟨rfl, rfl, rfl⟩, Fault.offset_diagnose _ _ _ _⟩

/-- The limit is exact and transparent.  Let the depth be the deepest level that
is opened without a limit.  A limit of at least this depth changes nothing.  A
lower one ends the reading at the first level beyond it: at the first token if
no level is allowed, otherwise behind the parenthesis or the word `NOT` that
opens the level.  And the depth of a tree is its nesting and one. -/
theorem parse_within_limit (expression : String) (limit : Limit) :
    let free := (ofText expression .unbounded).parse
    let limited := (ofText expression limit).parse
    (limit.allows free.2.deepest →
      limited.1 = free.1 ∧ limited.2.deepest = free.2.deepest) ∧
    (limit.allows free.2.deepest = false →
      limited.2.deepest = limit.toNat + 1 ∧
      ∃ excess diagnostic,
        ((ofText expression .unbounded).reading .standard).FirstBeyond
          limit.toNat excess ∧
        excess.level = limit.toNat + 1 ∧
        (limit.toNat = 0 → excess.tokens = tokenize expression) ∧
        (0 < limit.toNat → ∃ before opener,
          tokenize expression = before ++ opener :: excess.tokens ∧
            isOpener opener.kind) ∧
        limited.1 = .error diagnostic ∧
        diagnostic.SaysTooDeep limit expression ∧
        diagnostic.offset = placeOf expression excess.tokens) ∧
    (∀ tree, free.1 = .ok tree → free.2.deepest = tree.nesting + 1) := by
  intro free limited
  have depth : free.2.deepest =
      ((ofText expression .unbounded).reading .standard).height :=
    deepest_parse _
  have limitedDepth : limited.2.deepest =
      ((ofText expression limit).reading .standard).height :=
    deepest_parse _
  refine ⟨?_, ?_, ?_⟩
  · intro allowed
    rw [depth] at allowed
    have same := reading_of_allows allowed
    constructor
    · exact parse_of_reading_eq same
    · rw [depth, limitedDepth, same]
  · intro excessive
    rw [depth] at excessive
    obtain ⟨excess, first, level, atStart, behindOpener, failed, rest, height⟩ :=
      reading_of_not_allows excessive
    obtain ⟨diagnostic, answer, tooDeep, offset⟩ := parse_of_tooDeep failed
    rw [rest] at offset
    exact ⟨by rw [limitedDepth, height], excess, diagnostic, first, level,
      atStart, behindOpener, answer, tooDeep, offset⟩
  · intro tree succeeded
    rw [depth]
    exact Rule.height_of_result Dispatch.regular_standard
      (areLexical_tokenize expression) (parse_eq_ok_iff.mp succeeded)

theorem parse_within_limit_of_negated_group :
    (ofText "NOT (a = 1)" (.levels 3)).parse.1 =
        (ofText "NOT (a = 1)" .unbounded).parse.1 ∧
      (ofText "NOT (a = 1)" (.levels 2)).parse.2.deepest = 3 := by
  constructor
  · exact ((parse_within_limit "NOT (a = 1)" (.levels 3)).1 (by decide +kernel)).1
  · exact ((parse_within_limit "NOT (a = 1)" (.levels 2)).2.1 (by decide +kernel)).1

end Session

end Criteria
