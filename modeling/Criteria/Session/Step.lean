import Criteria.Session

/-!
# Steps of a session

The operations of a session as data.  A history of a session is the list of
steps that were carried out on it.
-/

namespace Criteria

namespace Session

/-- An operation of a session. -/
inductive Step where
  | parse
  | free (deep : Bool) (position : Nat)
  | expect (kind : Kind)
  deriving DecidableEq, Repr, Inhabited

/-- What an operation answers. -/
inductive Answer where
  | nothing
  /-- The outcome of a reading and the deepest level that it opened. -/
  | read (outcome : Except Diagnostic Expr) (deepest : Nat)
  | matched (outcome : Except Diagnostic Unit)

/-- Carry out an operation. -/
def step (session : Session) : Step → Answer × Session
  | .parse =>
      let (outcome, after) := session.parse
      (.read outcome after.deepest, after)
  | .free deep position => (.nothing, session.free deep position)
  | .expect kind =>
      let (outcome, after) := session.expect kind
      (.matched outcome, after)

/-- The session after a history. -/
def after (session : Session) (history : List Step) : Session :=
  history.foldl (fun current next => (current.step next).2) session

end Session

end Criteria
