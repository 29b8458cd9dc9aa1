import Criteria.Rule.Predicate
import Criteria.Walk.Basic

/-!
# Walks over conditions

The walks for predicates and conditions, each of which reads what the rule of
its name reads.  A walk recurses on a number of levels, which is that of the
levels still within the limit, so that `enter` stops it before the number is
used up.
-/

namespace Criteria

namespace Walk

/-- A field reference: a word. -/
def field : Walk Field := do
  expect .identifier
  return ⟨← consumedText⟩

/-- A literal. -/
def literal : Walk Literal := do
  let found ← look Cursor.lookaheadKind
  match found.literalKind? with
  | some kind =>
      expect found
      return ⟨kind, ← consumedText⟩
  | none => refuse (.expected .literal)

/-- An operand of a comparison or a bound: a field or a literal. -/
def operand : Walk Expr := do
  if ← look fun cursor => cursor.isNext .identifier then
    return .field (← field)
  else return .literal (← literal)

/-- What a text is matched with: a field or a string. -/
def pattern : Walk Expr := do
  match ← look Cursor.lookaheadKind with
  | .identifier => return .field (← field)
  | .string =>
      expect .string
      return .literal ⟨.string, ← consumedText⟩
  | _ => refuse (.expected .pattern)

/-- A relational operator.  Both `<>` and `!=` say that operands differ. -/
def relOp : Walk RelOp := do
  match ← look Cursor.lookaheadKind with
  | .equals =>
      expect .equals
      return .eq
  | .lowerThan =>
      expect .lowerThan
      if ← optional .equals then return .le
      else if ← optional .greaterThan then return .ne
      else return .lt
  | .greaterThan =>
      expect .greaterThan
      if ← optional .equals then return .ge else return .gt
  | .negate =>
      expect .negate
      expect .equals
      return .ne
  | _ => refuse (.expected .relOp)

/-- Two operands with an operator between them. -/
def comparison : Walk Expr := do
  let left ← operand
  let op ← relOp
  let right ← operand
  return .comparison left op right

/-- A subject between two bounds. -/
def between : Walk Expr := do
  let subject ← field
  let negated ← optional .notWord
  expect .betweenWord
  let low ← operand
  expect .andWord
  let high ← operand
  return .between subject negated low high

/-- A subject that matches a pattern. -/
def like : Walk Expr := do
  let subject ← field
  let negated ← optional .notWord
  expect .likeWord
  let matched ← pattern
  return .like subject negated matched

/-- A subject in a list of values. -/
def member : Walk Expr := do
  let subject ← field
  let negated ← optional .notWord
  expect .inWord
  expect .openParen
  let values ← sepBy .comma literal
  expect .closeParen
  return .member subject negated values

/-- A subject without a value. -/
def isNull : Walk Expr := do
  let subject ← field
  expect .isWord
  let negated ← optional .notWord
  expect .nullWord
  return .isNull subject negated

/-- The predicate of the form that the scout decides on. -/
def predicate (guide : Scout) : Walk Expr := do
  match ← scout guide.form with
  | .between => between
  | .like => like
  | .member => member
  | .isNull => isNull
  | .comparison => comparison

/-- A group around the given condition, or a predicate. -/
def primary (guide : Scout) (inner : Walk Expr) : Walk Expr := do
  if ← look fun cursor => cursor.isNext .openParen then
    if ← scout guide.opensGroup then
      expect .openParen
      let body ← inner
      expect .closeParen
      return .group body
    else predicate guide
  else predicate guide

/-- A negation, or what may stand without one. -/
def factor (negated plain : Walk Expr) : Walk Expr := do
  if ← optional .notWord then negated else plain

/-- Factors joined by `AND`. -/
def conjunction (factor : Walk Expr) : Walk Expr := do
  let factors ← sepBy .andWord factor
  return .allOf factors

/-- Terms joined by `OR`. -/
def disjunction (term : Walk Expr) : Walk Expr := do
  let terms ← sepBy .orWord term
  return .anyOf terms

mutual

/-- A condition, with so many levels left. -/
def expression (guide : Scout) : Nat → Walk Expr
  | 0, session => (deepen (refuse .tooDeep) : Walk Expr) session
  | levels + 1, session =>
      (deepen
        (disjunction
          (conjunction
            (factor (negation guide levels)
              (primary guide (expression guide levels)))))) session

/-- What follows the word `NOT`, with so many levels left. -/
def negation (guide : Scout) : Nat → Walk Expr
  | 0, session => (deepen (refuse .tooDeep) : Walk Expr) session
  | levels + 1, session =>
      (deepen
        (do
          let inner ← primary guide (expression guide levels)
          return .negation inner)) session

end

/-- A condition with nothing behind it. -/
def filter (guide : Scout) (levels : Nat) : Walk Expr := do
  let body ← expression guide levels
  finish
  return .filter body

end Walk

namespace Session

/-- The session with the first token loaded and no level counted. -/
def begun (session : Session) : Session :=
  { session with
    cursor := session.cursor.advance
    openLevels := 0
    deepest := 0 }

/-- Load the first token and walk over the tokens, guided by a scout. -/
def walk (guide : Scout) (session : Session) :
    Except Diagnostic Expr × Session :=
  Walk.filter guide (session.limit.allowance session.cursor.upcoming.length)
    session.begun

end Session

end Criteria
