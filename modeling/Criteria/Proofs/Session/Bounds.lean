import Criteria.Proofs.Cursor.Advance
import Criteria.Session.Bounds

/-!
# Acts within bounds

An operation of a cursor keeps the cursor within its bounds, whatever it is.  Any
other act keeps the bounds of a session where it is admitted, and what is in
bounds can be added up and taken off in words of 64 bits.
-/

namespace Criteria

namespace Cursor.InBounds

variable {tokenCount : Nat} {cursor : Cursor}

theorem ofText (text : String) :
    (Cursor.ofText text).InBounds (tokenize text).length where
  size := List.size_toArray
  position := Nat.zero_le _
  peeked := Nat.zero_le _
  currentAt _ loaded := nomatch loaded
  lookaheadAt _ loaded := nomatch loaded

theorem advance (inBounds : cursor.InBounds tokenCount) :
    cursor.advance.InBounds tokenCount := by
  have size := inBounds.size
  unfold Cursor.advance
  split
  · rename_i inside
    rw [size] at inside
    refine ⟨size, inside, Nat.zero_le _, inBounds.lookaheadAt, ?_⟩
    intro index loaded
    cases loaded
    exact inside
  · exact ⟨size, inBounds.position, Nat.zero_le _, inBounds.lookaheadAt,
      fun _ loaded => nomatch loaded⟩

theorem peek (inBounds : cursor.InBounds tokenCount) :
    cursor.peek.2.InBounds tokenCount := by
  cases seen : cursor.glimpse with
  | none =>
      simp only [Cursor.peek, seen]
      exact inBounds
  | some token =>
      -- The position plays no part: a token that is seen lies behind the looks.
      obtain ⟨inside, -⟩ := Array.getElem?_eq_some_iff.mp seen
      have further : cursor.peeked + 1 ≤ tokenCount := by
        rw [← inBounds.size]
        omega
      simp only [Cursor.peek, seen]
      exact ⟨inBounds.size, inBounds.position, further, inBounds.currentAt,
        inBounds.lookaheadAt⟩

theorem resetPosition (inBounds : cursor.InBounds tokenCount) (position : Nat) :
    (cursor.resetPosition position).InBounds tokenCount where
  size := inBounds.size
  position := by
    rw [Cursor.resetPosition, inBounds.size]
    exact Nat.min_le_right _ _
  peeked := inBounds.peeked
  currentAt := inBounds.currentAt
  lookaheadAt := inBounds.lookaheadAt

/-- Every operation keeps a cursor in its bounds, also when the cursor is moved
while it looks further on. -/
theorem step (inBounds : cursor.InBounds tokenCount) (step : Step) :
    (cursor.step step).2.InBounds tokenCount := by
  cases step with
  | advance => exact inBounds.advance
  | peek => exact inBounds.peek
  | glimpse => exact inBounds
  | resetPeek =>
      exact ⟨inBounds.size, inBounds.position, Nat.zero_le _,
        inBounds.currentAt, inBounds.lookaheadAt⟩
  | isNext kind => exact inBounds
  | resetPosition position => exact inBounds.resetPosition position
  | clear =>
      constructor
      · exact inBounds.size
      · exact inBounds.position
      · exact inBounds.peeked
      · exact fun _ loaded => nomatch loaded
      · exact fun _ loaded => nomatch loaded

end Cursor.InBounds

namespace Limit

theorem allowance_le (limit : Limit) {fewer more : Nat} (le : fewer ≤ more) :
    limit.allowance fewer ≤ limit.allowance more := by
  cases limit with
  | levels count => exact Nat.le_refl _
  | unbounded => exact Nat.succ_le_succ le

/-- Where the number of tokens is one of 64 bits, the limit counts as a number. -/
theorem reach_eq {tokenCount : Nat} (few : tokenCount ≤ maximum) (limit : Limit) :
    limit.reach tokenCount = min limit.toNat tokenCount + 1 := by
  cases limit with
  | levels count => rfl
  | unbounded =>
      simp only [reach, allowance, toNat]
      omega

theorem reach_le (limit : Limit) (tokenCount : Nat) :
    limit.reach tokenCount ≤ tokenCount + 1 :=
  Nat.succ_le_succ (Nat.min_le_right _ _)

end Limit

namespace Session

variable {limit : Limit} {tokenCount : Nat} {moment : Moment}

namespace Moment

/-- The act counts up no further than to a bound, and down from a number that is
not zero. -/
def Admits (limit : Limit) (tokenCount : Nat) (moment : Moment) : Act → Prop
  | .enter => moment.session.openLevels < limit.reach tokenCount
  | .leave => 0 < moment.session.openLevels
  | .count .openParen => moment.unmatched ≤ tokenCount
  | .count .closeParen => 0 < moment.unmatched
  | _ => True

/-- Every act is admitted where it is carried out. -/
def AdmitsAll (limit : Limit) (tokenCount : Nat) : Moment → List Act → Prop
  | _, [] => True
  | moment, act :: others =>
      moment.Admits limit tokenCount act ∧
        (moment.act act).AdmitsAll limit tokenCount others

theorem acted_append (moment : Moment) (acts further : List Act) :
    moment.acted (acts ++ further) = (moment.acted acts).acted further :=
  List.foldl_append

theorem admitsAll_append {acts further : List Act} :
    moment.AdmitsAll limit tokenCount (acts ++ further) ↔
      moment.AdmitsAll limit tokenCount acts ∧
        (moment.acted acts).AdmitsAll limit tokenCount further := by
  induction acts generalizing moment with
  | nil => exact ⟨fun all => ⟨trivial, all⟩, fun both => both.2⟩
  | cons act others ih =>
      have further := @ih (moment.act act)
      constructor
      · rintro ⟨admits, all⟩
        obtain ⟨early, late⟩ := further.mp all
        exact ⟨⟨admits, early⟩, late⟩
      · rintro ⟨⟨admits, early⟩, late⟩
        exact ⟨admits, further.mpr ⟨early, late⟩⟩

/-- An operation of a cursor is admitted anywhere. -/
theorem admitsAll_cursor (moment : Moment) (steps : List Cursor.Step) :
    moment.AdmitsAll limit tokenCount (steps.map .cursor) := by
  induction steps generalizing moment with
  | nil => exact trivial
  | cons step others ih => exact ⟨trivial, ih _⟩

theorem InBounds.ofText (expression : String) (limit : Limit) :
    (ofSession (ofText expression limit)).InBounds limit
      (tokenize expression).length where
  cursor := .ofText expression
  openLevels := Nat.zero_le _
  deepest := Nat.zero_le _
  unmatched := Nat.zero_le _

/-- The cursor is kept within its bounds by any act. -/
theorem inBounds_cursor_act
    (inBounds : moment.session.cursor.InBounds tokenCount) (act : Act) :
    (moment.act act).session.cursor.InBounds tokenCount := by
  cases act with
  | cursor step => exact inBounds.step step
  | restart | enter | leave | closeAll | await | count kind => exact inBounds

theorem inBounds_cursor_acted
    (inBounds : moment.session.cursor.InBounds tokenCount) (acts : List Act) :
    (moment.acted acts).session.cursor.InBounds tokenCount := by
  induction acts generalizing moment with
  | nil => exact inBounds
  | cons act others ih => exact ih (inBounds_cursor_act inBounds act)

theorem InBounds.count (inBounds : moment.InBounds limit tokenCount) {kind : Kind}
    (admits : moment.Admits limit tokenCount (.count kind)) :
    Cursor.countUnmatched moment.unmatched kind ≤ tokenCount + 1 := by
  cases kind with
  | openParen => exact Nat.succ_le_succ admits
  | closeParen => exact Nat.le_trans (Nat.sub_le _ _) inBounds.unmatched
  | _ => exact inBounds.unmatched

/-- An act that is admitted keeps the bounds. -/
theorem InBounds.act (inBounds : moment.InBounds limit tokenCount) {act : Act}
    (admits : moment.Admits limit tokenCount act) :
    (moment.act act).InBounds limit tokenCount := by
  have cursor := inBounds_cursor_act inBounds.cursor act
  have openLevels := inBounds.openLevels
  have deepest := inBounds.deepest
  have unmatched := inBounds.unmatched
  cases act with
  | cursor step => exact ⟨cursor, openLevels, deepest, unmatched⟩
  | restart => exact ⟨cursor, Nat.zero_le _, Nat.zero_le _, unmatched⟩
  | enter => exact ⟨cursor, admits, Nat.max_le.mpr ⟨deepest, admits⟩, unmatched⟩
  | leave =>
      exact ⟨cursor, Nat.le_trans (Nat.sub_le _ _) openLevels, deepest, unmatched⟩
  | closeAll => exact ⟨cursor, Nat.zero_le _, deepest, unmatched⟩
  | await =>
      exact ⟨cursor, openLevels, deepest, Nat.succ_le_succ (Nat.zero_le _)⟩
  | count kind => exact ⟨cursor, openLevels, deepest, inBounds.count admits⟩

/-- Acts that are all admitted keep the bounds in the midst of them and at their
end. -/
theorem InBounds.acted (inBounds : moment.InBounds limit tokenCount)
    {done left : List Act}
    (admits : moment.AdmitsAll limit tokenCount (done ++ left)) :
    (moment.acted done).InBounds limit tokenCount ∧
      ∀ act ∈ left.head?, (moment.acted done).Admits limit tokenCount act := by
  induction done generalizing moment with
  | nil =>
      refine ⟨inBounds, ?_⟩
      cases left with
      | nil => exact fun _ member => nomatch member
      | cons next others =>
          intro act member
          cases member
          exact admits.1
  | cons act others ih => exact ih (inBounds.act admits.1) admits.2

/-- What an admitted act takes one from is not zero. -/
theorem Admits.lowered_pos {act : Act}
    (admits : moment.Admits limit tokenCount act) :
    ∀ number ∈ act.lowered moment, 0 < number := by
  intro number member
  cases act with
  | leave =>
      cases List.mem_singleton.mp member
      exact admits
  | count kind =>
      cases kind with
      | closeParen =>
          cases List.mem_singleton.mp member
          exact admits
      | _ => cases member
  | _ => cases member

/-- What is added up within bounds is no more than twice the tokens and two. -/
theorem InBounds.sum_le (inBounds : moment.InBounds limit tokenCount) {act : Act} :
    ∀ sum ∈ act.sums moment, sum.1 + sum.2 ≤ 2 * tokenCount + 2 := by
  have position := inBounds.cursor.position
  have peeked := inBounds.cursor.peeked
  have openLevels := Nat.le_trans inBounds.openLevels (limit.reach_le tokenCount)
  have unmatched := inBounds.unmatched
  intro sum member
  cases act with
  | cursor step =>
      cases step with
      | advance | glimpse =>
          cases List.mem_singleton.mp member
          omega
      | peek =>
          rcases List.mem_cons.mp member with rfl | behind
          · omega
          · cases List.mem_singleton.mp behind
            omega
      | _ => cases member
  | enter =>
      cases List.mem_singleton.mp member
      omega
  | count kind =>
      cases kind with
      | openParen =>
          cases List.mem_singleton.mp member
          omega
      | _ => cases member
  | _ => cases member

end Moment

/-- Words of 64 bits add up as numbers do where the sum is one of 64 bits. -/
theorem toNat_add_words {first second : Nat}
    (fits : first + second < 0x10000000000000000) :
    (UInt64.ofNat first + UInt64.ofNat second).toNat = first + second := by
  rw [← UInt64.ofNat_add]
  exact UInt64.toNat_ofNat_of_lt fits

end Session

end Criteria
