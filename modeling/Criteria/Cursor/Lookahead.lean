import Criteria.Cursor
import Criteria.Rule.Lookahead

/-!
# Looking ahead with a cursor

A cursor looks ahead by peeking at one token after the other, and rewinds when
it has seen enough.  A `Scout` makes the decisions of a `Dispatch` in this way.
-/

namespace Criteria

/-- The kind of a token that was looked at; behind the last token it is the end
of the input. -/
def Kind.ofSeen : Option Token → Kind
  | some token => token.kind
  | none => .endOfInput

/-- Whether a token that was looked at is a point. -/
def isSeenPoint : Option Token → Bool
  | some token => token.text = "."
  | none => false

namespace Cursor

/-- The tokens that have not been looked at. -/
def ahead (cursor : Cursor) : List Token :=
  cursor.tokens.toList.drop (cursor.position + cursor.peeked)

/-- How many tokens have not been looked at. -/
def aheadCount (cursor : Cursor) : Nat :=
  cursor.tokens.size - (cursor.position + cursor.peeked)

theorem aheadCount_peek_lt {cursor : Cursor} {token : Token}
    (seen : cursor.peek.1 = some token) :
    cursor.peek.2.aheadCount < cursor.aheadCount := by
  cases present : cursor.glimpse with
  | some next =>
      obtain ⟨inside, -⟩ := Array.getElem?_eq_some_iff.mp present
      simp only [peek, present, aheadCount]
      omega
  | none => simp [peek, present] at seen

theorem aheadCount_peek_le (cursor : Cursor) :
    cursor.peek.2.aheadCount ≤ cursor.aheadCount := by
  cases seen : cursor.peek.1 with
  | some token => exact Nat.le_of_lt (aheadCount_peek_lt seen)
  | none =>
      cases present : cursor.glimpse with
      | some next => simp [peek, present] at seen
      | none => simp [peek, present]

/-- Look at one more token and tell its kind. -/
def peekKind (cursor : Cursor) : Kind × Cursor :=
  (.ofSeen cursor.peek.1, cursor.peek.2)

/-- How many closing parentheses are missing behind a token of the kind. -/
def countUnmatched (unmatched : Nat) : Kind → Nat
  | .openParen => unmatched + 1
  | .closeParen => unmatched - 1
  | _ => unmatched

/-- With a token of the given kind seen last, go on until no closing parenthesis
is missing or no token is left. -/
def seekBeyond (cursor : Cursor) (unmatched : Nat) (kind : Kind) : Kind × Cursor :=
  if unmatched = 0 ∨ kind = .endOfInput then (kind, cursor)
  else
    cursor.peekKind.2.seekBeyond (countUnmatched unmatched kind)
      cursor.peekKind.1
termination_by (cursor.aheadCount, if kind = .endOfInput then 0 else 1)
decreasing_by
  rename_i going
  cases seen : cursor.peek.1 with
  | some token => exact Prod.Lex.left _ _ (aheadCount_peek_lt seen)
  | none =>
      -- Nothing more is seen, and the search stops at the next step.
      have some : kind ≠ .endOfInput := fun atEnd => going (.inr atEnd)
      rcases Nat.lt_or_eq_of_le (aheadCount_peek_le cursor) with fewer | same
      · exact Prod.Lex.left _ _ fewer
      · rw [peekKind, same, seen]
        apply Prod.Lex.right
        simp [Kind.ofSeen, some]

/-- The kind of the token behind the parenthesis that matches the lookahead, or
the end of the input. -/
def kindBeyondParenthesis (cursor : Cursor) : Kind × Cursor :=
  let (first, next) := cursor.peekKind
  let (kind, last) := next.seekBeyond 1 first
  (kind, last.resetPeek)

/-- Look at one more token and tell its kind.  A point is passed over together
with the token behind it, as often as there is one. -/
def passPoints (cursor : Cursor) : Kind × Cursor :=
  if isSeenPoint cursor.peek.1 then cursor.peek.2.peek.2.passPoints
  else cursor.peekKind
termination_by cursor.aheadCount
decreasing_by
  rename_i isPoint
  cases seen : cursor.peek.1 with
  | some token =>
      exact Nat.lt_of_le_of_lt (aheadCount_peek_le _) (aheadCount_peek_lt seen)
  | none => simp [seen, isSeenPoint] at isPoint

/-- With a token of the given kind seen last, look behind it if it is `NOT`. -/
def passNot (kind : Kind) (cursor : Cursor) : Kind × Cursor :=
  if kind = .notWord then cursor.peekKind else (kind, cursor)

/-- The form of the predicate at the lookahead.  Behind an identifier it follows
from the words ahead, the first of which is looked at in the given way. -/
def predicateForm (first : Cursor → Kind × Cursor) (cursor : Cursor) :
    Form × Cursor :=
  let subject := cursor.lookaheadKind
  let leading :=
    if subject = .notWord then .ofSeen cursor.glimpse else subject
  if leading = .identifier then
    let (kind, atWord) := first cursor
    let (word, behindWord) := passNot kind atWord
    let (further, atAfter) := behindWord.peekKind
    let (after, last) := passNot further atAfter
    (Form.ofWord word after, last.resetPeek)
  else (Form.ofWord leading subject, cursor)

end Cursor

/-- How a reader decides by looking ahead with a cursor. -/
structure Scout where
  /-- Whether the opening parenthesis at the lookahead begins a group. -/
  opensGroup : Cursor → Bool × Cursor
  /-- The form of the predicate at the lookahead. -/
  form : Cursor → Form × Cursor

namespace Scout

/-- A parenthesis begins no group if a predicate goes on behind the matching
one, and points behind a subject are passed over. -/
def standard : Scout where
  opensGroup cursor :=
    let (kind, after) := cursor.kindBeyondParenthesis
    (!continuesPredicate kind, after)
  form := Cursor.predicateForm Cursor.passPoints

/-- A parenthesis always begins a group, and points are words like others. -/
def plain : Scout where
  opensGroup cursor := (true, cursor)
  form := Cursor.predicateForm Cursor.peekKind

end Scout

end Criteria
