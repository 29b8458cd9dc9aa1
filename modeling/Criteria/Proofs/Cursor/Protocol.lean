import Criteria.Cursor.Protocol
import Criteria.Proofs.Cursor.Advance

/-!
# The protocol of a cursor

After any walk a cursor shows what its operations and answers let one expect.  A
cursor that was moved and cleared behaves from the next step on as a fresh one
over the tokens that are left, whatever was done with it before.
-/

namespace Criteria

namespace Cursor

variable {cursor : Cursor} {tokens : List Token} {count : Count}

theorem run_cons (cursor : Cursor) (step : Step) (steps : List Step) :
    cursor.run (step :: steps) =
      ((cursor.step step).1 :: ((cursor.step step).2.run steps).1,
        ((cursor.step step).2.run steps).2) :=
  rfl

/-- A look moves nothing but the place of the looks. -/
theorem step_of_looks {step : Step} (looks : step.looks) (cursor : Cursor) :
    ∃ peeked, (cursor.step step).2 = { cursor with peeked := peeked } := by
  cases step with
  | peek =>
      cases found : cursor.glimpse with
      | some token => exact ⟨_, by simp only [Cursor.step, Cursor.peek, found]; rfl⟩
      | none => exact ⟨cursor.peeked, by simp only [Cursor.step, Cursor.peek, found]⟩
  | glimpse => exact ⟨cursor.peeked, rfl⟩
  | resetPeek => exact ⟨0, rfl⟩
  | isNext kind => exact ⟨cursor.peeked, rfl⟩
  | advance | resetPosition _ | clear => cases looks

/-- What a walk with the given count leaves in the fields of a cursor. -/
structure Walked (cursor : Cursor) (tokens : List Token) (count : Count) :
    Prop where
  holds : cursor.tokens = tokens.toArray
  position : cursor.position = min count.advances tokens.length
  peeked : cursor.peeked = count.seen
  lookahead : cursor.lookahead = tokenBefore tokens count.advances
  current : cursor.current = tokenBefore tokens (count.advances - 1)

namespace Walked

theorem ofTokens (text : String) (tokens : List Token) :
    (Cursor.ofTokens text tokens).Walked tokens ⟨0, 0⟩ where
  holds := rfl
  position := (Nat.zero_min _).symm
  peeked := rfl
  lookahead := rfl
  current := rfl

theorem glimpse_eq (walked : cursor.Walked tokens count) :
    cursor.glimpse = count.next tokens := by
  rw [Cursor.glimpse, walked.holds, walked.position, walked.peeked,
    List.getElem?_toArray, Count.next]

theorem head?_upcoming (walked : cursor.Walked tokens count) :
    cursor.upcoming.head? = tokens[count.advances]? := by
  rw [upcoming, walked.holds, walked.position, List.head?_drop,
    List.toList_toArray]
  by_cases inside : count.advances ≤ tokens.length
  · rw [Nat.min_eq_left inside]
  · have behind : tokens.length ≤ count.advances := Nat.le_of_not_le inside
    rw [Nat.min_eq_right behind, List.getElem?_eq_none (Nat.le_refl _),
      List.getElem?_eq_none behind]

theorem advance (walked : cursor.Walked tokens count) :
    cursor.advance.Walked tokens ⟨count.advances + 1, 0⟩ where
  holds := by rw [tokens_advance, walked.holds]
  position := by
    have size : cursor.tokens.size = tokens.length := by
      rw [walked.holds, List.size_toArray]
    have inside : cursor.position ≤ cursor.tokens.size := by
      rw [walked.position, size]
      exact Nat.min_le_right _ _
    rw [position_advance cursor inside, walked.position, size]
    dsimp only
    omega
  peeked := peeked_advance cursor
  lookahead := by
    rw [lookahead_advance, walked.head?_upcoming]
    rfl
  current := by
    rw [current_advance, walked.lookahead]
    rfl

theorem peek_of_some (walked : cursor.Walked tokens count) {token : Token}
    (found : cursor.glimpse = some token) :
    cursor.step .peek =
        (.token (some token), { cursor with peeked := cursor.peeked + 1 }) ∧
      Walked { cursor with peeked := cursor.peeked + 1 } tokens
        { count with seen := count.seen + 1 } := by
  constructor
  · simp only [Cursor.step, Cursor.peek, found]
  · exact ⟨walked.holds, walked.position, congrArg (· + 1) walked.peeked,
      walked.lookahead, walked.current⟩

theorem peek_of_none (found : cursor.glimpse = none) :
    cursor.step .peek = (.token none, cursor) := by
  simp only [Cursor.step, Cursor.peek, found]

/-- Each operation of a walk leaves what its count says. -/
theorem step (walked : cursor.Walked tokens count) {step : Step}
    (walks : step.walks) :
    (cursor.step step).2.Walked tokens
      (count.add (step, (cursor.step step).1)) := by
  cases step with
  | advance => exact walked.advance
  | peek =>
      cases found : cursor.glimpse with
      | some token =>
          obtain ⟨answer, after⟩ := walked.peek_of_some found
          rw [answer]
          exact after
      | none =>
          rw [peek_of_none found]
          exact walked
  | glimpse => exact walked
  | resetPeek =>
      exact ⟨walked.holds, walked.position, rfl, walked.lookahead,
        walked.current⟩
  | isNext kind => exact walked
  | resetPosition _ | clear => cases walks

/-- A whole walk leaves what the count of its operations and answers says. -/
theorem run (walked : cursor.Walked tokens count) (steps : List Step)
    (walks : ∀ step ∈ steps, step.walks) :
    (cursor.run steps).2.Walked tokens
      ((steps.zip (cursor.run steps).1).foldl Count.add count) := by
  induction steps generalizing cursor count with
  | nil => exact walked
  | cons first others ih =>
      obtain ⟨firstWalks, othersWalk⟩ := List.forall_mem_cons.mp walks
      rw [run_cons]
      exact ih (walked.step firstWalks) othersWalk

/-- What a cursor shows follows from what is left in its fields. -/
theorem shows (walked : cursor.Walked tokens count) :
    cursor.Shows tokens count where
  lookahead := walked.lookahead
  current := walked.current
  advance := by
    have loaded : cursor.advance.lookahead.isSome =
        decide (count.advances + 1 ≤ tokens.length) := by
      rw [walked.advance.lookahead, tokenBefore, Bool.eq_iff_iff,
        isSome_getElem?, decide_eq_true_iff]
      rfl
    exact congrArg Answer.flag loaded
  peek := by
    rw [← walked.glimpse_eq]
    cases found : cursor.glimpse with
    | some token => rw [(walked.peek_of_some found).1]
    | none => rw [peek_of_none found]
  peekAtEnd := by
    intro atEnd
    rw [← walked.glimpse_eq] at atEnd
    rw [peek_of_none atEnd]
  glimpse := by
    cases found : cursor.glimpse with
    | some token =>
        rw [(walked.peek_of_some found).1, Cursor.step, found]
    | none => rw [peek_of_none found, Cursor.step, found]
  isNext := by
    intro kind
    rw [Cursor.step, Cursor.isNext, lookaheadKind, walked.lookahead]
    cases tokenBefore tokens count.advances <;> rfl
  looksKeep := by
    intro step looks
    obtain ⟨peeked, after⟩ := step_of_looks looks cursor
    rw [after]
    exact ⟨rfl, rfl⟩

end Walked

/-- A cursor over some tokens and one over a part of them that begins so many
tokens further behind, at the same place of the part. -/
structure Matches (distance : Nat) (here there : Cursor) : Prop where
  tokens : ∀ index, here.tokens[index + distance]? = there.tokens[index]?
  size : here.tokens.size = there.tokens.size + distance
  position : here.position = there.position + distance
  currentAt : here.currentAt = there.currentAt.map (· + distance)
  lookaheadAt : here.lookaheadAt = there.lookaheadAt.map (· + distance)

namespace Matches

variable {distance : Nat} {here there : Cursor}

theorem token_eq (same : Matches distance here there) (index : Option Nat) :
    ((index.map (· + distance)).bind fun index => here.tokens[index]?) =
      index.bind fun index => there.tokens[index]? := by
  cases index with
  | none => rfl
  | some index => exact same.tokens index

theorem current_eq (same : Matches distance here there) :
    here.current = there.current := by
  rw [current, same.currentAt, same.token_eq, current]

theorem lookahead_eq (same : Matches distance here there) :
    here.lookahead = there.lookahead := by
  rw [lookahead, same.lookaheadAt, same.token_eq, lookahead]

theorem lookaheadKind_eq (same : Matches distance here there) :
    here.lookaheadKind = there.lookaheadKind := by
  rw [lookaheadKind, same.lookahead_eq, lookaheadKind]

theorem glimpse_eq (same : Matches distance here there)
    (samePeeked : here.peeked = there.peeked) :
    here.glimpse = there.glimpse := by
  have place : here.position + here.peeked =
      there.position + there.peeked + distance := by
    rw [same.position, samePeeked]
    omega
  rw [glimpse, place, same.tokens, glimpse]

/-- Looks do not matter for the next step. -/
theorem advance (same : Matches distance here there) :
    Matches distance here.advance there.advance ∧
      here.advance.peeked = there.advance.peeked := by
  have size := same.size
  have position := same.position
  unfold Cursor.advance
  by_cases inside : there.position < there.tokens.size
  · rw [if_pos (by omega), if_pos inside]
    exact ⟨⟨same.tokens, size, by simp only; omega, same.lookaheadAt,
      congrArg some position⟩, rfl⟩
  · rw [if_neg (by omega), if_neg inside]
    exact ⟨⟨same.tokens, size, position, same.lookaheadAt, rfl⟩, rfl⟩

theorem peek (same : Matches distance here there)
    (samePeeked : here.peeked = there.peeked) :
    (here.step .peek).1 = (there.step .peek).1 ∧
      Matches distance (here.step .peek).2 (there.step .peek).2 ∧
      (here.step .peek).2.peeked = (there.step .peek).2.peeked := by
  have sameGlimpse := same.glimpse_eq samePeeked
  simp only [Cursor.step, Cursor.peek, sameGlimpse]
  cases there.glimpse with
  | some token =>
      exact ⟨rfl, ⟨same.tokens, same.size, same.position, same.currentAt,
        same.lookaheadAt⟩, congrArg (· + 1) samePeeked⟩
  | none => exact ⟨rfl, same, samePeeked⟩

/-- Cursors that match and have looked equally far answer an operation alike. -/
theorem step (same : Matches distance here there)
    (samePeeked : here.peeked = there.peeked) {step : Step}
    (walks : step.walks) :
    (here.step step).1 = (there.step step).1 ∧
      Matches distance (here.step step).2 (there.step step).2 ∧
      (here.step step).2.peeked = (there.step step).2.peeked := by
  cases step with
  | advance =>
      refine ⟨?_, same.advance⟩
      simp only [Cursor.step, same.advance.1.lookahead_eq]
  | peek => exact same.peek samePeeked
  | glimpse =>
      refine ⟨?_, same, samePeeked⟩
      simp only [Cursor.step, same.glimpse_eq samePeeked]
  | resetPeek =>
      exact ⟨rfl, ⟨same.tokens, same.size, same.position, same.currentAt,
        same.lookaheadAt⟩, rfl⟩
  | isNext kind =>
      refine ⟨?_, same, samePeeked⟩
      simp only [Cursor.step, isNext, same.lookaheadKind_eq]
  | resetPosition _ | clear => cases walks

theorem run (same : Matches distance here there)
    (samePeeked : here.peeked = there.peeked) (steps : List Step)
    (walks : ∀ step ∈ steps, step.walks) :
    (here.run steps).1 = (there.run steps).1 ∧
      Matches distance (here.run steps).2 (there.run steps).2 := by
  induction steps generalizing here there with
  | nil => exact ⟨rfl, same⟩
  | cons first others ih =>
      obtain ⟨firstWalks, othersWalk⟩ := List.forall_mem_cons.mp walks
      obtain ⟨sameAnswer, after, afterPeeked⟩ := same.step samePeeked firstWalks
      obtain ⟨sameAnswers, last⟩ := ih after afterPeeked othersWalk
      rw [run_cons, run_cons, sameAnswer, sameAnswers]
      exact ⟨rfl, last⟩

/-- Once a step was taken, it is forgotten how far was looked before. -/
theorem run_advance (same : Matches distance here there) (steps : List Step)
    (walks : ∀ step ∈ steps, step.walks) :
    (here.run (.advance :: steps)).1 = (there.run (.advance :: steps)).1 ∧
      Matches distance (here.run (.advance :: steps)).2
        (there.run (.advance :: steps)).2 := by
  obtain ⟨after, afterPeeked⟩ := same.advance
  obtain ⟨sameAnswers, last⟩ := after.run afterPeeked steps walks
  have sameLookahead := after.lookahead_eq
  rw [run_cons, run_cons]
  refine ⟨?_, last⟩
  simp only [Cursor.step, sameLookahead, sameAnswers]

/-- Looking does not disturb a match. -/
theorem look (same : Matches distance here there) {step : Step}
    (looks : step.looks) : Matches distance (here.step step).2 there := by
  obtain ⟨peeked, after⟩ := step_of_looks looks here
  rw [after]
  exact ⟨same.tokens, same.size, same.position, same.currentAt,
    same.lookaheadAt⟩

theorem runLooks (same : Matches distance here there) (steps : List Step)
    (looks : ∀ step ∈ steps, step.looks) :
    Matches distance (here.run steps).2 there := by
  induction steps generalizing here with
  | nil => exact same
  | cons first others ih =>
      obtain ⟨firstLooks, othersLook⟩ := List.forall_mem_cons.mp looks
      rw [run_cons]
      exact ih (same.look firstLooks) othersLook

end Matches

theorem tokens_step (cursor : Cursor) (step : Step) :
    (cursor.step step).2.tokens = cursor.tokens := by
  cases step with
  | advance => exact tokens_advance cursor
  | peek =>
      obtain ⟨peeked, after⟩ := @step_of_looks .peek rfl cursor
      rw [after]
  | glimpse | resetPeek | isNext _ | resetPosition _ | clear => rfl

theorem text_step (cursor : Cursor) (step : Step) :
    (cursor.step step).2.text = cursor.text := by
  cases step with
  | advance => exact text_advance cursor
  | peek =>
      obtain ⟨peeked, after⟩ := @step_of_looks .peek rfl cursor
      rw [after]
  | glimpse | resetPeek | isNext _ | resetPosition _ | clear => rfl

theorem tokens_run (cursor : Cursor) (steps : List Step) :
    (cursor.run steps).2.tokens = cursor.tokens := by
  induction steps generalizing cursor with
  | nil => rfl
  | cons first others ih => rw [run_cons, ih, tokens_step]

/-- A cursor that was moved and cleared stands like a fresh one over the tokens
from that place on. -/
theorem matches_moved (holds : cursor.tokens = tokens.toArray) (text : String)
    (position : Nat) :
    Matches (min position tokens.length) (cursor.resetPosition position).clear
      (ofTokens text (tokens.drop (min position tokens.length))) where
  tokens := by
    intro index
    simp [resetPosition, clear, ofTokens, holds, Nat.add_comm]
  size := by
    have within := Nat.min_le_right position tokens.length
    simp only [resetPosition, clear, ofTokens, holds, List.size_toArray,
      List.length_drop]
    omega
  position := by simp [resetPosition, clear, ofTokens, holds]
  currentAt := rfl
  lookaheadAt := rfl

/-- After any walk over an input the cursor shows what the number of its steps
and of its looks says.  And whatever was done with a cursor, once it has been
moved and cleared, and perhaps looked around, it answers from the next step on
as a fresh cursor does that has only the tokens from the new place on. -/
theorem walk_protocol (text : String) (history : List Step) :
    let tokens := tokenize text
    let done := (ofText text).run history
    ((∀ step ∈ history, step.walks) →
      done.2.Shows tokens (Count.ofWalk history done.1)) ∧
    ∀ (position : Nat) (idle steps : List Step),
      (∀ step ∈ idle, step.looks) → (∀ step ∈ steps, step.walks) →
      let start := min position tokens.length
      let moved := ((done.2.resetPosition position).clear.run idle).2
      let resumed := moved.run (.advance :: steps)
      let fresh := (ofTokens text (tokens.drop start)).run (.advance :: steps)
      resumed.1 = fresh.1 ∧ resumed.2.current = fresh.2.current ∧
        resumed.2.lookahead = fresh.2.lookahead := by
  intro tokens done
  constructor
  · intro walks
    exact ((Walked.ofTokens text tokens).run history walks).shows
  · intro position idle steps idleLooks stepsWalk start moved resumed fresh
    have holds : done.2.tokens = tokens.toArray := tokens_run _ history
    have same := (matches_moved holds text position).runLooks idle idleLooks
    obtain ⟨sameAnswers, last⟩ := same.run_advance steps stepsWalk
    exact ⟨sameAnswers, last.current_eq, last.lookahead_eq⟩

theorem walk_protocol_of_rewound_list :
    let history : List Step := [.advance, .peek, .advance, .peek, .peek]
    let idle : List Step := [.peek]
    let steps : List Step := [.peek, .advance]
    let done := (ofText "a IN (1)").run history
    let moved := ((done.2.resetPosition 1).clear.run idle).2
    (∀ step ∈ history, step.walks) ∧ (∀ step ∈ idle, step.looks) ∧
      (∀ step ∈ steps, step.walks) ∧
      done.2.Shows (tokenize "a IN (1)") ⟨2, 2⟩ ∧
      (moved.run (.advance :: steps)).1 =
        [.flag true, .token (some ⟨.openParen, "(", 5⟩), .flag true] := by
  intro history idle steps done moved
  have historyWalks : ∀ step ∈ history, step.walks := by decide
  have idleLooks : ∀ step ∈ idle, step.looks := by decide
  have stepsWalk : ∀ step ∈ steps, step.walks := by decide
  obtain ⟨shown, resumes⟩ := walk_protocol "a IN (1)" history
  have counted : Count.ofWalk history done.1 = ⟨2, 2⟩ := by decide +kernel
  have shows := shown historyWalks
  obtain ⟨sameAnswers, -, -⟩ := resumes 1 idle steps idleLooks stepsWalk
  have answers :
      ((ofTokens "a IN (1)" ((tokenize "a IN (1)").drop
        (min 1 (tokenize "a IN (1)").length))).run (.advance :: steps)).1 =
      [.flag true, .token (some ⟨.openParen, "(", 5⟩), .flag true] := by
    decide +kernel
  exact ⟨historyWalks, idleLooks, stepsWalk, counted ▸ shows,
    sameAnswers.trans answers⟩

end Cursor

end Criteria
