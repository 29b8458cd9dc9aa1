import Criteria.Expr.Basic
import Criteria.Text.Quoted

/-!
# Canonical text

The text of an expression: keywords in upper case, one blank between words,
strings quoted with inner quotes doubled, and parentheses exactly where the
tree has a group.  A root adds nothing to the text of its body.
-/

namespace Criteria

/-- The spelling of an operator. -/
def RelOp.symbol : RelOp → String
  | .eq => "="
  | .lt => "<"
  | .le => "<="
  | .ne => "<>"
  | .gt => ">"
  | .ge => ">="

/-- The spelling of a literal: strings are quoted, all else stands as it is. -/
def Literal.render (literal : Literal) : String :=
  match literal.kind with
  | .string => String.ofList (quote literal.raw.toList)
  | .numeric | .boolean => literal.raw

namespace Expr

/-- The word in front of the keyword of a negated predicate. -/
def negationMark (negated : Bool) : String :=
  if negated then "NOT " else ""

/-- The literals of a list, separated by commas. -/
def renderValues (values : List Literal) : String :=
  ", ".intercalate (values.map Literal.render)

mutual

/-- The canonical text of an expression. -/
def render : Expr → String
  | filter body => body.render
  | disjunction terms => renderJoined " OR " terms
  | conjunction factors => renderJoined " AND " factors
  | negation inner => "NOT " ++ inner.render
  | group inner => "(" ++ inner.render ++ ")"
  | comparison left op right =>
      left.render ++ " " ++ op.symbol ++ " " ++ right.render
  | between subject negated low high =>
      subject.name ++ " " ++ negationMark negated ++ "BETWEEN " ++ low.render ++
        " AND " ++ high.render
  | like subject negated pattern =>
      subject.name ++ " " ++ negationMark negated ++ "LIKE " ++ pattern.render
  | member subject negated values =>
      subject.name ++ " " ++ negationMark negated ++ "IN (" ++
        renderValues values ++ ")"
  | isNull subject negated =>
      subject.name ++ " IS " ++ negationMark negated ++ "NULL"
  | field subject => subject.name
  | literal value => value.render

/-- The texts of the operands with the separator between them. -/
def renderJoined (separator : String) : List Expr → String
  | [] => ""
  | operand :: operands =>
      operand.render ++ renderFollowing separator operands

/-- The texts of the operands, each after the separator. -/
def renderFollowing (separator : String) : List Expr → String
  | [] => ""
  | operand :: operands =>
      separator ++ operand.render ++ renderFollowing separator operands

end

instance : ToString Expr := ⟨render⟩

end Expr

end Criteria
