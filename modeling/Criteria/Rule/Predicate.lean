import Criteria.Expr.Basic
import Criteria.Rule.Basic
import Criteria.Rule.Lookahead

/-!
# Predicates

The rules for predicates and their parts.  A keyword is accepted as the subject
of a predicate, since it is spelled like an identifier, but it is no operand.
-/

namespace Criteria

namespace Rule

/-- A field reference: a word. -/
def field : Rule Field := do
  let token ← expect .identifier
  return ⟨token.text⟩

end Rule

/-- The category of literals that tokens of a kind are. -/
def Kind.literalKind? : Kind → Option LiteralKind
  | .string => some .string
  | .integer | .float => some .numeric
  | .trueWord | .falseWord => some .boolean
  | _ => none

/-- The literal that a token is, if it is one. -/
def Token.literal? (token : Token) : Option Literal :=
  token.kind.literalKind?.map fun kind => ⟨kind, token.text⟩

namespace Rule

/-- A literal. -/
def literal : Rule Literal
  | [] => ⟨.error (.expected .literal), [], [], 0⟩
  | token :: rest =>
      match token.literal? with
      | some value => ⟨.ok value, rest, [], 0⟩
      | none => ⟨.error (.expected .literal), token :: rest, [], 0⟩

/-- An operand of a comparison or a bound: a field or a literal. -/
def operand : Rule Expr := do
  if (← upcoming) = .identifier then
    let subject ← field
    return .field subject
  else
    let value ← literal
    return .literal value

/-- What a text is matched with: a field or a string. -/
def pattern : Rule Expr := do
  match ← upcoming with
  | .identifier =>
      let subject ← field
      return .field subject
  | .string =>
      let token ← expect .string
      return .literal ⟨.string, token.text⟩
  | _ => fail (.expected .pattern)

/-- A relational operator.  Both `<>` and `!=` say that operands differ. -/
def relOp : Rule RelOp := do
  match ← upcoming with
  | .equals =>
      let _ ← expect .equals
      return .eq
  | .lowerThan =>
      let _ ← expect .lowerThan
      if ← optional .equals then return .le
      else if ← optional .greaterThan then return .ne
      else return .lt
  | .greaterThan =>
      let _ ← expect .greaterThan
      if ← optional .equals then return .ge else return .gt
  | .negate =>
      let _ ← expect .negate
      let _ ← expect .equals
      return .ne
  | _ => fail (.expected .relOp)

/-- Two operands with an operator between them. -/
def comparison : Rule Expr := do
  let left ← operand
  let op ← relOp
  let right ← operand
  return .comparison left op right

/-- A subject between two bounds. -/
def between : Rule Expr := do
  let subject ← field
  let negated ← optional .notWord
  let _ ← expect .betweenWord
  let low ← operand
  let _ ← expect .andWord
  let high ← operand
  return .between subject negated low high

/-- A subject that matches a pattern. -/
def like : Rule Expr := do
  let subject ← field
  let negated ← optional .notWord
  let _ ← expect .likeWord
  let matched ← pattern
  return .like subject negated matched

/-- A subject in a list of values. -/
def member : Rule Expr := do
  let subject ← field
  let negated ← optional .notWord
  let _ ← expect .inWord
  let _ ← expect .openParen
  let values ← sepBy .comma literal
  let _ ← expect .closeParen
  return .member subject negated values

/-- A subject without a value. -/
def isNull : Rule Expr := do
  let subject ← field
  let _ ← expect .isWord
  let negated ← optional .notWord
  let _ ← expect .nullWord
  return .isNull subject negated

/-- The predicate of the form that the dispatch decides on. -/
def predicate (dispatch : Dispatch) : Rule Expr := do
  match ← ask dispatch.form with
  | .between => between
  | .like => like
  | .member => member
  | .isNull => isNull
  | .comparison => comparison

end Rule

end Criteria
