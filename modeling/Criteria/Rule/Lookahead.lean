import Criteria.Token.Basic

/-!
# Looking ahead

Two decisions need more than the next token.  An opening parenthesis begins a
group unless the matching one is followed by something that continues a
predicate.  And the form of a predicate follows from the words behind its
subject.  A `Dispatch` makes both decisions; `Dispatch.standard` is the one
that reading uses, `Dispatch.plain` leaves out two precautions of it.
-/

namespace Criteria

/-- The forms of a predicate. -/
inductive Form where
  | comparison
  | between
  | like
  | member
  | isNull
  deriving DecidableEq, Repr, Inhabited

/-- The kind of the token behind the place where as many closing parentheses as
given have come without an opening one, or the end of the input. -/
def kindBeyond : Nat → List Token → Kind
  | 0, tokens => Token.headKind tokens
  | _ + 1, [] => .endOfInput
  | unmatched + 1, token :: rest =>
      match token.kind with
      | .openParen => kindBeyond (unmatched + 2) rest
      | .closeParen => kindBeyond unmatched rest
      | _ => kindBeyond (unmatched + 1) rest

/-- The kinds that continue a predicate behind an operand. -/
def continuesPredicate : Kind → Bool
  | .equals | .lowerThan | .greaterThan | .notWord | .betweenWord | .likeWord
  | .inWord | .isWord => true
  | _ => false

/-- The tokens without a run of points at their front, each taken together with
the token behind it. -/
def skipPoints : List Token → List Token
  | [] => []
  | [token] => if token.text = "." then [] else [token]
  | token :: next :: rest =>
      if token.text = "." then skipPoints rest else token :: next :: rest

/-- The form that a deciding word announces.  The word `IS` needs the word
`NULL` behind it. -/
def Form.ofWord (word after : Kind) : Form :=
  match word with
  | .betweenWord => .between
  | .likeWord => .like
  | .inWord => .member
  | .isWord => if after = .nullWord then .isNull else .comparison
  | _ => .comparison

/-- The kind of the first token other than one `NOT` at the front, and the
tokens behind it. -/
def behindNot (tokens : List Token) : Kind × List Token :=
  match tokens with
  | [] => (.endOfInput, [])
  | token :: rest =>
      if token.kind = .notWord then (Token.headKind rest, rest.tail)
      else (token.kind, rest)

/-- The form of the predicate at the front of the tokens.  Behind an identifier
the form follows from the next word, which a `NOT` may precede.  After `NOT` in
the place of the subject, the second token takes the place of the first. -/
def formOf (skip : List Token → List Token) (tokens : List Token) : Form :=
  let first := Token.headKind tokens
  let leading := if first = .notWord then Token.headKind tokens.tail else first
  if leading = .identifier then
    let (word, rest) := behindNot (skip tokens.tail)
    Form.ofWord word (behindNot rest).1
  else Form.ofWord leading first

/-- How a reader decides by looking ahead. -/
structure Dispatch where
  /-- Whether the opening parenthesis at the front begins a group. -/
  opensGroup : List Token → Bool
  /-- The form of the predicate at the front. -/
  form : List Token → Form

namespace Dispatch

/-- A parenthesis begins no group if a predicate goes on behind the matching
one, and points behind a subject are passed over. -/
def standard : Dispatch where
  opensGroup tokens := !continuesPredicate (kindBeyond 1 tokens.tail)
  form := formOf skipPoints

/-- A parenthesis always begins a group, and points are words like others. -/
def plain : Dispatch where
  opensGroup _ := true
  form := formOf id

end Dispatch

end Criteria
