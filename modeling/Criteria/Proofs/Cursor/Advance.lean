import Criteria.Cursor

/-!
# Advancing a cursor

What a cursor shows and holds after it has consumed one token or several: the
lookahead was the first upcoming token, and the token consumed last was the
lookahead.
-/

namespace Criteria

namespace Cursor

theorem lookahead_advance (cursor : Cursor) :
    cursor.advance.lookahead = cursor.upcoming.head? := by
  unfold advance upcoming
  by_cases inside : cursor.position < cursor.tokens.size
  · rw [if_pos inside]
    simp [lookahead, List.head?_drop]
  · have behind : cursor.tokens.size ≤ cursor.position := Nat.le_of_not_gt inside
    rw [if_neg inside]
    simp [lookahead, List.head?_drop, behind]

theorem upcoming_advance (cursor : Cursor) :
    cursor.advance.upcoming = cursor.upcoming.tail := by
  unfold advance upcoming
  by_cases inside : cursor.position < cursor.tokens.size
  · rw [if_pos inside, List.tail_drop]
  · have behind : cursor.tokens.size ≤ cursor.position := Nat.le_of_not_gt inside
    rw [if_neg inside, List.tail_drop]
    have atEnd : cursor.tokens.toList.length ≤ cursor.position := behind
    rw [List.drop_eq_nil_of_le atEnd, List.drop_eq_nil_of_le (by omega)]

@[simp] theorem text_advance (cursor : Cursor) :
    cursor.advance.text = cursor.text := by
  unfold advance
  split <;> rfl

@[simp] theorem text_advanceBy (count : Nat) (cursor : Cursor) :
    (advanceBy count cursor).text = cursor.text := by
  induction count generalizing cursor with
  | zero => rfl
  | succ count ih => rw [advanceBy, ih, text_advance]

/-- Loading the lookahead and consuming a number of tokens brings the token
behind these to the front. -/
theorem lookahead_advanceBy (count : Nat) (cursor : Cursor) :
    (advanceBy count cursor.advance).lookahead = cursor.upcoming[count]? := by
  induction count generalizing cursor with
  | zero =>
      rw [advanceBy, lookahead_advance, List.head?_eq_getElem?]
  | succ count ih =>
      rw [advanceBy, ih, upcoming_advance, List.getElem?_tail]

theorem peeked_advance (cursor : Cursor) : cursor.advance.peeked = 0 := by
  unfold advance
  split <;> rfl

theorem current_advance (cursor : Cursor) :
    cursor.advance.current = cursor.lookahead := by
  unfold advance
  split <;> rfl

theorem advanceBy_add (first second : Nat) (cursor : Cursor) :
    cursor.advanceBy (first + second) = (cursor.advanceBy first).advanceBy second := by
  induction first generalizing cursor with
  | zero => rw [Nat.zero_add, advanceBy]
  | succ first ih => rw [Nat.succ_add, advanceBy, advanceBy, ih]

@[simp] theorem tokens_advance (cursor : Cursor) :
    cursor.advance.tokens = cursor.tokens := by
  unfold advance
  split <;> rfl

@[simp] theorem tokens_advanceBy (count : Nat) (cursor : Cursor) :
    (advanceBy count cursor).tokens = cursor.tokens := by
  induction count generalizing cursor with
  | zero => rfl
  | succ count ih => rw [advanceBy, ih, tokens_advance]

theorem position_advance (cursor : Cursor)
    (inside : cursor.position ≤ cursor.tokens.size) :
    cursor.advance.position = min (cursor.position + 1) cursor.tokens.size := by
  unfold advance
  split
  · rename_i before
    exact (Nat.min_eq_left before).symm
  · have atEnd : cursor.position = cursor.tokens.size := by omega
    simp [atEnd]

theorem position_advanceBy (count : Nat) (cursor : Cursor)
    (inside : cursor.position ≤ cursor.tokens.size) :
    (advanceBy count cursor).position =
      min (cursor.position + count) cursor.tokens.size := by
  induction count generalizing cursor with
  | zero => exact (Nat.min_eq_left inside).symm
  | succ count ih =>
      have next := position_advance cursor inside
      rw [advanceBy, ih _ (by rw [next, tokens_advance]; exact Nat.min_le_right _ _),
        next, tokens_advance]
      omega

end Cursor

end Criteria
