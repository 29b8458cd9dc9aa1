import Criteria.Expr.Render
import Criteria.Session

/-!
# Parsing

Reading a condition in one call, with the standard limit or another one, and
its canonical text.
-/

namespace Criteria

/-- Read a condition that nests within the limit. -/
def parseWithin (limit : Limit) (expression : String) :
    Except Diagnostic Expr :=
  (Session.ofText expression limit).parse.1

/-- Read a condition that nests within the standard limit. -/
def parse (expression : String) : Except Diagnostic Expr :=
  parseWithin .standard expression

/-- The canonical text of a condition. -/
def normalize (expression : String) : Except Diagnostic String :=
  (parse expression).map Expr.render

end Criteria
