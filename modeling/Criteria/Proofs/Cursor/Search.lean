import Criteria.Proofs.Cursor.Lookahead
import Criteria.Proofs.Cursor.Protocol
import Criteria.Proofs.Session.Bounds

/-!
# The acts of a search

A search that is carried out act by act leaves the session as the search does
that is carried out at once.  As many parentheses as it may be missing, as many
tokens it has looked at, so that it never counts further than there are tokens.
-/

namespace Criteria

namespace Cursor

open Session (Act Moment)

variable {moment : Moment} {limit : Limit} {tokenCount : Nat}

theorem run_append (cursor : Cursor) (first second : List Step) :
    (cursor.run (first ++ second)).2 = ((cursor.run first).2.run second).2 := by
  induction first generalizing cursor with
  | nil => rfl
  | cons step others ih => exact ih (cursor.step step).2

/-- The operations of a cursor are its acts in a session. -/
theorem session_acted_cursor (moment : Moment) (steps : List Step) :
    (moment.acted (steps.map .cursor)).session =
      { moment.session with cursor := (moment.session.cursor.run steps).2 } := by
  induction steps generalizing moment with
  | nil => rfl
  | cons step others ih => exact ih _

theorem countUnmatched_le (unmatched : Nat) (kind : Kind) :
    countUnmatched unmatched kind ≤ unmatched + 1 := by
  cases kind with
  | openParen => exact Nat.le_refl _
  | closeParen => exact Nat.le_trans (Nat.sub_le _ _) (Nat.le_succ _)
  | _ => exact Nat.le_succ _

theorem seekBeyond_of_stop {unmatched : Nat} {kind : Kind}
    (stop : unmatched = 0 ∨ kind = .endOfInput) (cursor : Cursor) :
    cursor.seekBeyond unmatched kind = (kind, cursor) := by
  rw [seekBeyond, if_pos stop]

theorem seekBeyond_of_going {unmatched : Nat} {kind : Kind}
    (going : ¬ (unmatched = 0 ∨ kind = .endOfInput)) (cursor : Cursor) :
    cursor.seekBeyond unmatched kind =
      cursor.peekKind.2.seekBeyond (countUnmatched unmatched kind)
        cursor.peekKind.1 := by
  rw [seekBeyond, if_neg going]

/-- In a search that goes on, a token is counted within the tokens looked at. -/
theorem admits_count {kind : Kind}
    (inBounds : moment.session.cursor.InBounds tokenCount)
    (looked : kind = .endOfInput ∨
      moment.unmatched ≤ moment.session.cursor.peeked)
    (going : ¬ (moment.unmatched = 0 ∨ kind = .endOfInput)) :
    moment.Admits limit tokenCount (.count kind) := by
  obtain ⟨missing, inside⟩ := not_or.mp going
  cases kind with
  | openParen => exact Nat.le_trans (looked.resolve_left inside) inBounds.peeked
  | closeParen => exact Nat.pos_of_ne_zero missing
  | _ => exact trivial

/-- The acts of a search leave the cursor where the search leaves it. -/
theorem session_acted_seekActs (moment : Moment) (kind : Kind)
    {tokens : List Token} (ahead : moment.session.cursor.ahead = tokens) :
    (moment.acted (seekActs tokens moment.unmatched kind)).session =
      { moment.session with
        cursor :=
          (moment.session.cursor.seekBeyond moment.unmatched kind).2 } := by
  have seen : moment.session.cursor.peekKind.1 = Token.headKind tokens := by
    rw [(sees_peekKind _).kind, ahead]
  induction tokens generalizing moment kind with
  | nil =>
      rw [seekActs]
      by_cases stop : moment.unmatched = 0 ∨ kind = .endOfInput
      · rw [if_pos stop, seekBeyond_of_stop stop]
        rfl
      · rw [if_neg stop, seekBeyond_of_going stop, seen, Token.headKind,
          seekBeyond_of_stop (.inr rfl)]
        rfl
  | cons token rest ih =>
      rw [seekActs]
      by_cases stop : moment.unmatched = 0 ∨ kind = .endOfInput
      · rw [if_pos stop, seekBeyond_of_stop stop]
        rfl
      · have next : moment.session.cursor.peek.2.ahead = rest := by
          rw [ahead_peek, ahead, List.tail_cons]
        have nextSeen : moment.session.cursor.peek.2.peekKind.1 =
            Token.headKind rest := by
          rw [(sees_peekKind _).kind, next]
        rw [if_neg stop, seekBeyond_of_going stop, seen]
        exact ih ((moment.act (.count kind)).act (.cursor .peek)) token.kind
          next nextSeen

/-- A token that is there to be seen is counted as looked at. -/
theorem peeked_peek_of_ahead {cursor : Cursor} {token : Token}
    {rest : List Token} (ahead : cursor.ahead = token :: rest) :
    cursor.peek.2.peeked = cursor.peeked + 1 := by
  have present : cursor.glimpse = some token := by
    rw [glimpse_eq, ahead, List.head?_cons]
  simp only [peek, present]

/-- A search is admitted that is missing no more parentheses than tokens were
looked at. -/
theorem admitsAll_seekActs (moment : Moment) (kind : Kind)
    {tokens : List Token} (ahead : moment.session.cursor.ahead = tokens)
    (inBounds : moment.session.cursor.InBounds tokenCount)
    (looked : kind = .endOfInput ∨
      moment.unmatched ≤ moment.session.cursor.peeked) :
    moment.AdmitsAll limit tokenCount
      (seekActs tokens moment.unmatched kind) := by
  induction tokens generalizing moment kind with
  | nil =>
      rw [seekActs]
      by_cases stop : moment.unmatched = 0 ∨ kind = .endOfInput
      · rw [if_pos stop]
        exact trivial
      · rw [if_neg stop]
        exact ⟨admits_count inBounds looked stop, trivial, trivial⟩
  | cons token rest ih =>
      rw [seekActs]
      by_cases stop : moment.unmatched = 0 ∨ kind = .endOfInput
      · rw [if_pos stop]
        exact trivial
      · rw [if_neg stop]
        refine ⟨admits_count inBounds looked stop, trivial, ?_⟩
        apply ih ((moment.act (.count kind)).act (.cursor .peek)) token.kind
        · have next := ahead_peek moment.session.cursor
          rw [ahead] at next
          exact next
        · exact inBounds.peek
        · right
          -- One token more was looked at for the one that was counted.
          have few := looked.resolve_left (not_or.mp stop).2
          have further := peeked_peek_of_ahead ahead
          calc
            countUnmatched moment.unmatched kind ≤ moment.unmatched + 1 :=
              countUnmatched_le _ _
            _ ≤ moment.session.cursor.peeked + 1 := Nat.succ_le_succ few
            _ = moment.session.cursor.peek.2.peeked := further.symm

/-- The acts of looking behind a group leave what looking behind it leaves. -/
theorem session_acted_groupActs (moment : Moment) :
    (moment.acted moment.session.cursor.groupActs).session =
      { moment.session with
        cursor := (Scout.standard.opensGroup moment.session.cursor).2 } := by
  have searched := session_acted_seekActs
    ((moment.act (.cursor .peek)).act .await)
    moment.session.cursor.peekKind.1 rfl
  unfold groupActs
  dsimp only
  rw [Moment.acted_append]
  exact congrArg (fun session : Session =>
    { session with cursor := session.cursor.resetPeek }) searched

theorem admitsAll_groupActs (moment : Moment)
    (inBounds : moment.session.cursor.InBounds tokenCount) :
    moment.AdmitsAll limit tokenCount moment.session.cursor.groupActs := by
  have looked : moment.session.cursor.peekKind.1 = .endOfInput ∨
      1 ≤ moment.session.cursor.peek.2.peeked := by
    cases ahead : moment.session.cursor.ahead with
    | nil =>
        left
        rw [(sees_peekKind _).kind, ahead, Token.headKind]
    | cons token rest =>
        right
        rw [peeked_peek_of_ahead ahead]
        exact Nat.le_add_left _ _
  have searched :
      ((moment.act (.cursor .peek)).act .await).AdmitsAll limit tokenCount
        (seekActs moment.session.cursor.peek.2.ahead 1
          moment.session.cursor.peekKind.1) :=
    admitsAll_seekActs _ _ rfl inBounds.peek looked
  unfold groupActs
  dsimp only
  rw [Moment.admitsAll_append]
  exact ⟨⟨trivial, trivial, searched⟩, trivial, trivial⟩

theorem pointSteps_eq (tokens : List Token) :
    pointSteps tokens =
      if isSeenPoint tokens.head? then
        .peek :: .peek :: pointSteps tokens.tail.tail
      else [.peek] := by
  cases tokens with
  | nil => rfl
  | cons token others =>
      cases others with
      | nil => by_cases isPoint : token.text = "." <;>
          simp [pointSteps, isSeenPoint, isPoint]
      | cons next rest => by_cases isPoint : token.text = "." <;>
          simp [pointSteps, isSeenPoint, isPoint]

theorem run_pointSteps (cursor : Cursor) :
    (cursor.run (pointSteps cursor.ahead)).2 = cursor.passPoints.2 := by
  fun_induction passPoints cursor with
  | case1 cursor isPoint ih =>
      rw [pointSteps_eq, ← peek_fst, if_pos isPoint, ← ahead_peek, ← ahead_peek]
      exact ih
  | case2 cursor noPoint =>
      rw [pointSteps_eq, ← peek_fst, if_neg noPoint]
      rfl

theorem run_notSteps (cursor : Cursor) (kind : Kind) :
    (cursor.run (notSteps kind)).2 = (passNot kind cursor).2 := by
  unfold notSteps passNot
  split
  · rfl
  · rfl

/-- The steps of looking for the form leave the cursor where looking leaves it. -/
theorem run_formSteps (cursor : Cursor) :
    (cursor.run cursor.formSteps).2 = (Scout.standard.form cursor).2 := by
  unfold formSteps Scout.standard predicateForm
  dsimp only
  have first : (cursor.run
      (if cursor.lookaheadKind = .notWord then [.glimpse] else [])).2 = cursor := by
    split
    · rfl
    · rfl
  rw [run_append, first]
  generalize (if cursor.lookaheadKind = .notWord then Kind.ofSeen cursor.glimpse
    else cursor.lookaheadKind) = leading
  by_cases isIdentifier : leading = .identifier
  · rw [if_pos isIdentifier, if_pos isIdentifier]
    simp only [run_append, run_pointSteps, run_notSteps]
    rfl
  · rw [if_neg isIdentifier, if_neg isIdentifier]
    rfl

end Cursor

end Criteria
