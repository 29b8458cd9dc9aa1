import Criteria.Cursor
import Criteria.Diagnostic
import Criteria.Limit
import Criteria.Rule.Expression

/-!
# Sessions

A session reads one input, perhaps several times.  It owns the cursor over the
input's tokens, and the cursor stays where a call left it: behind the last
token after a success, before the offending token after a fault.  `free` moves
it back.
-/

namespace Criteria

/-- The repeated reading of one input. -/
structure Session where
  cursor : Cursor
  limit : Limit
  /-- How many levels the last reading left open. -/
  openLevels : Nat
  /-- The deepest level that the last reading opened. -/
  deepest : Nat
  deriving DecidableEq, Repr, Inhabited

/-- A fault as a diagnostic: it lies at the first token that was not consumed,
or at the end of the input. -/
def Fault.diagnose (fault : Fault) (lookahead : Option Token)
    (expression : String) (limit : Limit) : Diagnostic where
  cause :=
    match fault with
    | .expected what => .mismatch what.describe (lookahead.map Token.text)
    | .tooDeep => .tooDeep limit.toNat
  offset :=
    match lookahead with
    | some token => token.offset
    | none => expression.length
  expression := expression

namespace Session

/-- A session before its first reading. -/
def ofText (expression : String) (limit : Limit) : Session where
  cursor := .ofText expression
  limit := limit
  openLevels := 0
  deepest := 0

/-- The input. -/
def expression (session : Session) : String :=
  session.cursor.text

/-- The diagnostic for a fault at the lookahead. -/
def diagnose (session : Session) (fault : Fault) : Diagnostic :=
  fault.diagnose session.cursor.lookahead session.expression session.limit

/-- How the tokens that have not been loaded come out as a complete condition,
with the given way of looking ahead. -/
def reading (dispatch : Dispatch) (session : Session) : Run Expr :=
  let tokens := session.cursor.upcoming
  Rule.filter dispatch (session.limit.allowance tokens.length) tokens

/-- Read the tokens that have not been loaded as a complete condition.  The
cursor consumes what the reading consumed. -/
def parse (session : Session) : Except Diagnostic Expr × Session :=
  let run := session.reading .standard
  let consumed := session.cursor.upcoming.length - run.rest.length
  let after : Session :=
    { session with
      cursor := session.cursor.advance.advanceBy consumed
      openLevels := run.unclosed
      deepest := run.height }
  match run.result with
  | .ok tree => (.ok tree, after)
  | .error fault => (.error (after.diagnose fault), after)

/-- Move back to the token with the given index and forget what was loaded.
With `deep`, the tokens that were looked at are forgotten as well. -/
def free (session : Session) (deep : Bool) (position : Nat) : Session :=
  let moved := session.cursor.resetPosition position
  let rewound := if deep then moved.resetPeek else moved
  { session with cursor := rewound.clear, openLevels := 0 }

/-- Consume the lookahead if it may stand for the given kind. -/
def expect (session : Session) (kind : Kind) : Except Diagnostic Unit × Session :=
  if kind.accepts session.cursor.lookaheadKind then
    (.ok (), { session with cursor := session.cursor.advance })
  else (.error (session.diagnose (.expected (.kind kind))), session)

end Session

end Criteria
