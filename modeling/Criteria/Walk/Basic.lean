import Criteria.Cursor.Lookahead
import Criteria.Session

/-!
# Walks

A walk reads with a session, one step after the other.  It moves the cursor of
the session and keeps count of the open levels, and it stops with a diagnostic
at the first lookahead that it cannot use.  The session that is left shows how
far it came.
-/

namespace Criteria

/-- The lookahead and the tokens that have not been loaded. -/
def Cursor.pending (cursor : Cursor) : List Token :=
  cursor.lookahead.toList ++ cursor.upcoming

/-- The session with one more level open. -/
def Session.deeper (session : Session) : Session :=
  { session with
    openLevels := session.openLevels + 1
    deepest := max session.deepest (session.openLevels + 1) }

/-- The session with one level less open. -/
def Session.shallower (session : Session) : Session :=
  { session with openLevels := session.openLevels - 1 }

/-- A reader that works on a session and may stop with a diagnostic. -/
def Walk (α : Type) : Type :=
  Session → Except Diagnostic α × Session

namespace Walk

variable {α β : Type}

/-- Do nothing. -/
protected def pure (value : α) : Walk α := fun session => (.ok value, session)

/-- Go on with the session that the first walk left, unless it stopped. -/
protected def bind (first : Walk α) (next : α → Walk β) : Walk β := fun session =>
  match first session with
  | (.ok value, after) => next value after
  | (.error diagnostic, after) => (.error diagnostic, after)

instance : Monad Walk where
  pure := Walk.pure
  bind := Walk.bind

/-- Stop at the lookahead. -/
def refuse (fault : Fault) : Walk α := fun session =>
  (.error (session.diagnose fault), session)

/-- Ask the cursor. -/
def look (question : Cursor → α) : Walk α := fun session =>
  (.ok (question session.cursor), session)

/-- Decide by looking ahead, which may move the cursor. -/
def scout (decide : Cursor → α × Cursor) : Walk α := fun session =>
  let (answer, cursor) := decide session.cursor
  (.ok answer, { session with cursor := cursor })

/-- Consume a lookahead that may stand for the given kind. -/
def expect (kind : Kind) : Walk Unit := fun session =>
  session.expect kind

/-- The text of the token consumed last. -/
def consumedText : Walk String :=
  look fun cursor => (cursor.current.map Token.text).getD ""

/-- Consume the lookahead if it has the given kind, and say whether it had. -/
def optional (kind : Kind) : Walk Bool := do
  if ← look fun cursor => cursor.isNext kind then
    expect kind
    return true
  else return false

/-- Open a level, which must be within the limit. -/
def enter : Walk Unit := fun session =>
  let entered := session.deeper
  if session.limit.allows entered.openLevels then (.ok (), entered)
  else (.error (entered.diagnose .tooDeep), entered)

/-- Close a level. -/
def leave : Walk Unit := fun session =>
  (.ok (), session.shallower)

/-- Walk one level deeper.  After a diagnostic the level stays open. -/
def deepen (walk : Walk α) : Walk α := do
  enter
  let value ← walk
  leave
  return value

/-- Items with separators between them, with at most so many separators. -/
def sepByUpTo (separator : Kind) (item : Walk α) : Nat → Walk (List α)
  | 0 => do
      let last ← item
      return [last]
  | bound + 1 => do
      let first ← item
      if ← optional separator then
        let others ← sepByUpTo separator item bound
        return first :: others
      else return [first]

/-- One or more items with separators between them, of which there cannot be
more than tokens. -/
def sepBy (separator : Kind) (item : Walk α) : Walk (List α) := fun session =>
  sepByUpTo separator item session.cursor.pending.length session

/-- Insist that no token is left. -/
def finish : Walk Unit := do
  if (← look Cursor.lookahead).isSome then refuse (.expected (.kind .endOfInput))

end Walk

end Criteria
