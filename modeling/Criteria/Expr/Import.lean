import Criteria.Expr.Export
import Criteria.Json.Read

/-!
# Import of expressions

The way back from the JSON form: a record with the members of the export, in
the order of the export, is read as the expression it came from, and anything
else is refused.
-/

namespace Criteria

/-- The operator with the given symbol. -/
def RelOp.ofSymbol? : String → Option RelOp
  | "=" => some .eq
  | "<" => some .lt
  | "<=" => some .le
  | "<>" => some .ne
  | ">" => some .gt
  | ">=" => some .ge
  | _ => none

/-- The category of literals with the given name. -/
def LiteralKind.ofName? : String → Option LiteralKind
  | "string" => some .string
  | "numeric" => some .numeric
  | "boolean" => some .boolean
  | _ => none

/-- The literal with the given JSON form. -/
def Literal.ofJson? : Json → Option Literal
  | .record [("kind", .text kind), ("raw", .text raw)] =>
      (LiteralKind.ofName? kind).map fun kind => ⟨kind, raw⟩
  | _ => none

/-- The field with the given JSON form. -/
def Field.ofJson? : Json → Option Field
  | .record [("name", .text name)] => some ⟨name⟩
  | _ => none

namespace Expr

mutual

/-- The expression with the given JSON form. -/
def ofJson? : Json → Option Expr
  | .record [("type", .text "filter"), ("body", body)] =>
      (ofJson? body).map filter
  | .record [("type", .text "or"), ("terms", .list terms)] =>
      (ofJsonList? terms).map disjunction
  | .record [("type", .text "and"), ("factors", .list factors)] =>
      (ofJsonList? factors).map conjunction
  | .record [("type", .text "not"), ("inner", inner)] =>
      (ofJson? inner).map negation
  | .record [("type", .text "group"), ("inner", inner)] =>
      (ofJson? inner).map group
  | .record
      [("type", .text "comparison"), ("left", left), ("op", .text op),
        ("right", right)] =>
      match ofJson? left, RelOp.ofSymbol? op, ofJson? right with
      | some left, some op, some right => some (comparison left op right)
      | _, _, _ => none
  | .record
      [("type", .text "between"), ("subject", subject), ("not", .bool negated),
        ("low", low), ("high", high)] =>
      match Field.ofJson? subject, ofJson? low, ofJson? high with
      | some subject, some low, some high =>
          some (between subject negated low high)
      | _, _, _ => none
  | .record
      [("type", .text "like"), ("subject", subject), ("not", .bool negated),
        ("pattern", pattern)] =>
      match Field.ofJson? subject, ofJson? pattern with
      | some subject, some pattern => some (like subject negated pattern)
      | _, _ => none
  | .record
      [("type", .text "in"), ("subject", subject), ("not", .bool negated),
        ("values", .list values)] =>
      match Field.ofJson? subject, values.mapM Literal.ofJson? with
      | some subject, some values => some (member subject negated values)
      | _, _ => none
  | .record
      [("type", .text "is_null"), ("subject", subject), ("not", .bool negated)] =>
      (Field.ofJson? subject).map fun subject => isNull subject negated
  | .record [("type", .text "identifier"), ("name", .text name)] =>
      some (field ⟨name⟩)
  | .record [("type", .text "literal"), ("kind", .text kind), ("raw", .text raw)] =>
      (LiteralKind.ofName? kind).map fun kind => literal ⟨kind, raw⟩
  | _ => none

/-- The expressions with the given JSON forms. -/
def ofJsonList? : List Json → Option (List Expr)
  | [] => some []
  | item :: items =>
      match ofJson? item, ofJsonList? items with
      | some operand, some operands => some (operand :: operands)
      | _, _ => none

end

/-- The expression with the given compact text. -/
def deserialize? (text : String) : Option Expr :=
  (Json.read? text).bind ofJson?

end Expr

end Criteria
