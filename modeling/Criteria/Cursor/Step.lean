import Criteria.Cursor

/-!
# Steps of a cursor

The operations of a cursor as data, so that a walk can be given as a list of
steps.  Every step has an answer and leaves a cursor behind.
-/

namespace Criteria

namespace Cursor

/-- An operation of a cursor. -/
inductive Step where
  | advance
  | peek
  | glimpse
  | resetPeek
  | isNext (kind : Kind)
  | resetPosition (position : Nat)
  | clear
  deriving DecidableEq, Repr, Inhabited

/-- What an operation answers. -/
inductive Answer where
  | nothing
  | flag (value : Bool)
  | token (token : Option Token)
  deriving DecidableEq, Repr, Inhabited

/-- Carry out an operation.  `advance` answers whether a token was loaded. -/
def step (cursor : Cursor) : Step → Answer × Cursor
  | .advance => (.flag cursor.advance.lookahead.isSome, cursor.advance)
  | .peek => (.token cursor.peek.1, cursor.peek.2)
  | .glimpse => (.token cursor.glimpse, cursor)
  | .resetPeek => (.nothing, cursor.resetPeek)
  | .isNext kind => (.flag (cursor.isNext kind), cursor)
  | .resetPosition position => (.nothing, cursor.resetPosition position)
  | .clear => (.nothing, cursor.clear)

/-- Carry out operations one after the other. -/
def run (cursor : Cursor) : List Step → List Answer × Cursor
  | [] => ([], cursor)
  | first :: others =>
      let (answer, next) := cursor.step first
      let (answers, last) := next.run others
      (answer :: answers, last)

end Cursor

end Criteria
