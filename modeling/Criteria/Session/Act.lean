import Criteria.Cursor.Step
import Criteria.Session.Step
import Criteria.Walk.Course

/-!
# Acts

An operation of a session, or of the cursor of a session, changes one thing after
the other.  An act is a single change.  The acts of an operation, in their order,
show every state that the session comes through in the midst of it.
-/

namespace Criteria

namespace Session

/-- A session in the midst of an operation. -/
structure Moment where
  session : Session
  /-- How many closing parentheses the search behind a group is missing, or was
  missing when it ended. -/
  unmatched : Nat
  deriving DecidableEq, Repr, Inhabited

/-- A single change. -/
inductive Act where
  /-- An operation of the cursor. -/
  | cursor (step : Cursor.Step)
  /-- Count no level, neither as open nor as the deepest. -/
  | restart
  | enter
  | leave
  /-- Count no level as open. -/
  | closeAll
  /-- Begin a search with one closing parenthesis missing. -/
  | await
  /-- Count a token of the given kind in a search. -/
  | count (kind : Kind)
  deriving DecidableEq, Repr, Inhabited

namespace Moment

/-- A session before its first operation. -/
def ofSession (session : Session) : Moment where
  session := session
  unmatched := 0

/-- Carry out an act. -/
def act (moment : Moment) : Act → Moment
  | .cursor step =>
      { moment with session :=
        { moment.session with cursor := (moment.session.cursor.step step).2 } }
  | .restart =>
      { moment with session :=
        { moment.session with openLevels := 0, deepest := 0 } }
  | .enter => { moment with session := moment.session.deeper }
  | .leave => { moment with session := moment.session.shallower }
  | .closeAll =>
      { moment with session := { moment.session with openLevels := 0 } }
  | .await => { moment with unmatched := 1 }
  | .count kind =>
      { moment with unmatched := Cursor.countUnmatched moment.unmatched kind }

/-- Carry out acts one after the other. -/
def acted (moment : Moment) (acts : List Act) : Moment :=
  acts.foldl act moment

end Moment

end Session

namespace Cursor

open Session (Act)

/-- What a search does that has the given tokens ahead and has seen one of the
given kind last.  Behind the last token it sees the end and stops. -/
def seekActs (ahead : List Token) (unmatched : Nat) (kind : Kind) : List Act :=
  if unmatched = 0 ∨ kind = .endOfInput then []
  else
    .count kind :: .cursor .peek ::
      match ahead with
      | [] => []
      | token :: rest =>
          seekActs rest (countUnmatched unmatched kind) token.kind

/-- The acts of looking behind the parenthesis that matches the lookahead. -/
def groupActs (cursor : Cursor) : List Act :=
  let (first, next) := cursor.peekKind
  [.cursor .peek, .await] ++ seekActs next.ahead 1 first ++ [.cursor .resetPeek]

/-- The looks that pass over points, with the given tokens ahead. -/
def pointSteps : List Token → List Step
  | [] => [.peek]
  | [token] => if token.text = "." then [.peek, .peek, .peek] else [.peek]
  | token :: _ :: rest =>
      if token.text = "." then .peek :: .peek :: pointSteps rest else [.peek]

/-- The look behind a token of the given kind if it is `NOT`. -/
def notSteps (kind : Kind) : List Step :=
  if kind = .notWord then [.peek] else []

/-- The steps of looking for the word that decides on the form of a predicate. -/
def formSteps (cursor : Cursor) : List Step :=
  let subject := cursor.lookaheadKind
  let leading :=
    if subject = .notWord then .ofSeen cursor.glimpse else subject
  let first := if subject = .notWord then [.glimpse] else []
  let others :=
    if leading = .identifier then
      let (kind, atWord) := cursor.passPoints
      let (_, behindWord) := passNot kind atWord
      let (further, _) := behindWord.peekKind
      pointSteps cursor.ahead ++ notSteps kind ++ [.peek] ++ notSteps further ++
        [.resetPeek]
    else []
  first ++ others

end Cursor

namespace Walk

open Session (Act)

/-- The acts of a walk from the given session on. -/
def Course.acts : {α : Type} → {walk : Walk α} → Course walk → Session → List Act
  | _, _, .pure _, _ => []
  | _, _, .look _, _ => []
  | _, _, .refuse _, _ => []
  | _, _, .expect kind, session =>
      if kind.accepts session.cursor.lookaheadKind then [.cursor .advance] else []
  | _, _, .seekGroup, session => session.cursor.groupActs
  | _, _, .seekForm, session => session.cursor.formSteps.map .cursor
  | _, _, @Course.bind _ _ first _ courseFirst courseNext, session =>
      courseFirst.acts session ++
        match first session with
        | (.ok value, after) => (courseNext value).acts after
        | (.error _, _) => []
  | _, _, @Course.deepen _ walk inner, session =>
      .enter ::
        if session.limit.allows session.deeper.openLevels then
          (inner ()).acts session.deeper ++
            match (walk session.deeper).1 with
            | .ok _ => [.leave]
            | .error _ => []
        else []

end Walk

namespace Session

/-- What can be done with a session and with its cursor. -/
inductive Operation where
  | cursor (step : Cursor.Step)
  | session (step : Step)
  deriving DecidableEq, Repr, Inhabited

/-- Carry out an operation. -/
def operate (session : Session) : Operation → Session
  | .cursor step => { session with cursor := (session.cursor.step step).2 }
  | .session step => (session.step step).2

/-- Carry out operations one after the other. -/
def operated (session : Session) (run : List Operation) : Session :=
  run.foldl operate session

/-- The acts of an operation.  A reading is carried out as a walk. -/
def acts (session : Session) : Operation → List Act
  | .cursor step => [.cursor step]
  | .session .parse =>
      let levels := session.limit.allowance session.cursor.upcoming.length
      .restart :: .cursor .advance ::
        (Walk.Course.filter levels).acts session.begun
  | .session (.free deep position) =>
      .cursor (.resetPosition position) ::
        ((if deep then [.cursor .resetPeek] else []) ++
          [.cursor .clear, .closeAll])
  | .session (.expect kind) => (Walk.Course.expect kind).acts session

/-- The acts of operations, one after the other. -/
def actsAlong (session : Session) : List Operation → List Act
  | [] => []
  | next :: others => session.acts next ++ (session.operate next).actsAlong others

end Session

end Criteria
