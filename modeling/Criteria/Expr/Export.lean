import Criteria.Expr.Render
import Criteria.Json.Basic

/-!
# Export of expressions

Every expression has a JSON form: a record whose first member `type` is the tag
of the outermost construct and whose further members are its parts.  Operators
are given by their symbols, fields by their names, and literals by their kind
and raw text.
-/

namespace Criteria

/-- The exported name of a category of literals. -/
def LiteralKind.name : LiteralKind → String
  | .string => "string"
  | .numeric => "numeric"
  | .boolean => "boolean"

/-- The JSON form of a literal. -/
def Literal.toJson (literal : Literal) : Json :=
  .record [("kind", .text literal.kind.name), ("raw", .text literal.raw)]

/-- The JSON form of a field as a part of a predicate. -/
def Field.toJson (field : Field) : Json :=
  .record [("name", .text field.name)]

namespace Expr

/-- A record that begins with the tag of a construct. -/
def tagged (tag : String) (members : List (String × Json)) : Json :=
  .record (("type", .text tag) :: members)

mutual

/-- The JSON form of an expression. -/
def toJson : Expr → Json
  | filter body => tagged "filter" [("body", body.toJson)]
  | disjunction terms => tagged "or" [("terms", .list (toJsonList terms))]
  | conjunction factors => tagged "and" [("factors", .list (toJsonList factors))]
  | negation inner => tagged "not" [("inner", inner.toJson)]
  | group inner => tagged "group" [("inner", inner.toJson)]
  | comparison left op right =>
      tagged "comparison"
        [("left", left.toJson), ("op", .text op.symbol), ("right", right.toJson)]
  | between subject negated low high =>
      tagged "between"
        [("subject", subject.toJson), ("not", .bool negated),
          ("low", low.toJson), ("high", high.toJson)]
  | like subject negated pattern =>
      tagged "like"
        [("subject", subject.toJson), ("not", .bool negated),
          ("pattern", pattern.toJson)]
  | member subject negated values =>
      tagged "in"
        [("subject", subject.toJson), ("not", .bool negated),
          ("values", .list (values.map Literal.toJson))]
  | isNull subject negated =>
      tagged "is_null" [("subject", subject.toJson), ("not", .bool negated)]
  | field subject => tagged "identifier" [("name", .text subject.name)]
  | literal value =>
      tagged "literal" [("kind", .text value.kind.name), ("raw", .text value.raw)]

/-- The JSON forms of the operands. -/
def toJsonList : List Expr → List Json
  | [] => []
  | operand :: operands => operand.toJson :: toJsonList operands

end

/-- The JSON form as compact text. -/
def serialize (expression : Expr) : String :=
  expression.toJson.compact

end Expr

end Criteria
