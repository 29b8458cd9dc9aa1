import Criteria.Token.Basic

/-!
# Canonical tokens

What the canonical text of a condition changes in its tokens: the operator `!=`
becomes `<>`, and keywords are written in upper case, except that `TRUE` and
`FALSE` stay as they are.
-/

namespace Criteria

namespace Token

/-- The tokens with `!` and `=` in a row replaced by `<` and `>`. -/
def uniteUnequal : List Token → List Token
  | [] => []
  | [token] => [token]
  | first :: second :: rest =>
      if first.kind = .negate && second.kind = .equals then
        { first with kind := .lowerThan, text := "<" } ::
          { second with kind := .greaterThan, text := ">" } :: uniteUnequal rest
      else first :: uniteUnequal (second :: rest)

/-- Whether a token of this kind may change its letter case. -/
def recasable (kind : Kind) : Bool :=
  kind.isKeyword && kind ≠ .trueWord && kind ≠ .falseWord

/-- Tokens of one kind with the same text, up to letter case where the kind
allows it. -/
def SameReading (left right : Token) : Prop :=
  left.kind = right.kind ∧
    if recasable left.kind then sameWord left.text right.text
    else left.text = right.text

end Token

end Criteria
