import Criteria.Cursor.Protocol
import Criteria.Walk.Condition

/-!
# Moves of a session

What a walk does to its session, one move after the other, and how the session
is moved back between two walks.  A session can come into exactly the states to
which moves lead from a fresh one.
-/

namespace Criteria

namespace Session

/-- A session on the given tokens before its first reading. -/
def ofTokens (text : String) (tokens : List Token) (limit : Limit) : Session where
  cursor := .ofTokens text tokens
  limit := limit
  openLevels := 0
  deepest := 0

theorem ofTokens_tokenize (expression : String) (limit : Limit) :
    ofTokens expression (tokenize expression) limit =
      ofText expression limit :=
  rfl

/-- A single thing that is done to a session. -/
inductive Move where
  /-- Load the first token and count no level. -/
  | begin
  | expect (kind : Kind)
  | enter
  | leave
  /-- Look behind the parenthesis that matches the lookahead. -/
  | seekGroup
  /-- Look for the word that decides on the form of a predicate. -/
  | seekForm
  | free (deep : Bool) (position : Nat)
  deriving DecidableEq, Repr, Inhabited

/-- Carry out a move. -/
def move (session : Session) : Move → Session
  | .begin => session.begun
  | .expect kind => (session.expect kind).2
  | .enter => session.deeper
  | .leave => session.shallower
  | .seekGroup =>
      { session with cursor := (Scout.standard.opensGroup session.cursor).2 }
  | .seekForm =>
      { session with cursor := (Scout.standard.form session.cursor).2 }
  | .free deep position => session.free deep position

/-- The session behind the moves, carried out one after the other. -/
def moved (session : Session) (moves : List Move) : Session :=
  moves.foldl move session

/-- Moves lead to the session from a fresh one on the given tokens. -/
def IsReachable (tokens : List Token) (session : Session) : Prop :=
  ∃ text limit moves, session = (ofTokens text tokens limit).moved moves

theorem moved_append (session : Session) (moves further : List Move) :
    session.moved (moves ++ further) = (session.moved moves).moved further :=
  List.foldl_append

end Session

end Criteria
