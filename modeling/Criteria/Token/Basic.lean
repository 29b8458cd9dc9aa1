import Criteria.Text.Quoted
import Criteria.Token.Kind

/-!
# Tokens

A token is a classified piece of the input.  It keeps the text it stands for
and the number of characters before it.  Its spelling is the piece of the input
it was read from: the text itself, or for a string the quoted form of the text.
-/

namespace Criteria

/-- How a text of this kind is spelled in the input. -/
def Kind.spell (kind : Kind) (text : List Char) : List Char :=
  if kind = .string then quote text else text

/-- A classified piece of the input. -/
structure Token where
  kind : Kind
  /-- The spelling, or the content of a quoted string. -/
  text : String
  /-- How many characters of the input come before the token. -/
  offset : Nat
  deriving DecidableEq, Repr, Inhabited

namespace Token

/-- The piece of the input that the token was read from. -/
def spelling (token : Token) : List Char :=
  token.kind.spell token.text.toList

/-- The kind of the first token, or the end of the input. -/
def headKind : List Token → Kind
  | [] => .endOfInput
  | token :: _ => token.kind

end Token

end Criteria
