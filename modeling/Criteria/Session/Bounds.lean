import Criteria.Session.Act

/-!
# Bounds

The bounds of the positions and counters of a session on an input of so many
tokens, and the additions and subtractions that an act carries out on them.
-/

namespace Criteria

/-- The deepest level that may be counted in an input of so many tokens: one
beyond the limit, or one more than there are tokens. -/
def Limit.reach (limit : Limit) (tokenCount : Nat) : Nat :=
  min (limit.allowance tokenCount) tokenCount + 1

/-- The cursor is on so many tokens, and its positions are positions of them. -/
structure Cursor.InBounds (tokenCount : Nat) (cursor : Cursor) : Prop where
  size : cursor.tokens.size = tokenCount
  position : cursor.position ≤ tokenCount
  peeked : cursor.peeked ≤ tokenCount
  currentAt : ∀ index, cursor.currentAt = some index → index < tokenCount
  lookaheadAt : ∀ index, cursor.lookaheadAt = some index → index < tokenCount

namespace Session

/-- The session counts no level beyond the limit and the tokens but one, and a
search is missing no more parentheses than there are tokens but one. -/
structure Moment.InBounds (limit : Limit) (tokenCount : Nat) (moment : Moment) :
    Prop where
  cursor : moment.session.cursor.InBounds tokenCount
  openLevels : moment.session.openLevels ≤ limit.reach tokenCount
  deepest : moment.session.deepest ≤ limit.reach tokenCount
  unmatched : moment.unmatched ≤ tokenCount + 1

namespace Act

/-- The pairs of numbers that the act adds up. -/
def sums (moment : Moment) : Act → List (Nat × Nat)
  | .cursor .advance => [(moment.session.cursor.position, 1)]
  | .cursor .peek =>
      [(moment.session.cursor.position, moment.session.cursor.peeked),
        (moment.session.cursor.peeked, 1)]
  | .cursor .glimpse =>
      [(moment.session.cursor.position, moment.session.cursor.peeked)]
  | .enter => [(moment.session.openLevels, 1)]
  | .count .openParen => [(moment.unmatched, 1)]
  | _ => []

/-- The numbers from which the act takes one. -/
def lowered (moment : Moment) : Act → List Nat
  | .leave => [moment.session.openLevels]
  | .count .closeParen => [moment.unmatched]
  | _ => []

end Act

end Session

end Criteria
