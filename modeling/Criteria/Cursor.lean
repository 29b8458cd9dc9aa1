import Criteria.Token.Scan

/-!
# Cursors

A cursor walks over the tokens of an input.  It holds the token consumed last,
the token to be consumed next, and a place from which further tokens can be
looked at without consuming them.  `advance` consumes; `peek` looks one token
further each time, starting behind the next token, and never consumes.
-/

namespace Criteria

/-- A walk over the tokens of an input. -/
structure Cursor where
  /-- The input. -/
  text : String
  /-- All tokens of the input. -/
  tokens : Array Token
  /-- The index of the token that comes after the lookahead. -/
  position : Nat
  /-- How many tokens from `position` on have been looked at. -/
  peeked : Nat
  /-- The index of the token consumed last. -/
  currentAt : Option Nat
  /-- The index of the token to be consumed next. -/
  lookaheadAt : Option Nat
  deriving DecidableEq, Repr, Inhabited

namespace Cursor

/-- A cursor before the first token; nothing is loaded yet. -/
def ofText (text : String) : Cursor where
  text := text
  tokens := (tokenize text).toArray
  position := 0
  peeked := 0
  currentAt := none
  lookaheadAt := none

/-- The offset behind the last character of the input. -/
def endOffset (cursor : Cursor) : Nat :=
  cursor.text.length

/-- The token consumed last. -/
def current (cursor : Cursor) : Option Token :=
  cursor.currentAt.bind fun index => cursor.tokens[index]?

/-- The token to be consumed next. -/
def lookahead (cursor : Cursor) : Option Token :=
  cursor.lookaheadAt.bind fun index => cursor.tokens[index]?

/-- The kind of the lookahead, or the end of the input. -/
def lookaheadKind (cursor : Cursor) : Kind :=
  match cursor.lookahead with
  | some token => token.kind
  | none => .endOfInput

/-- Whether the lookahead has the given kind. -/
def isNext (cursor : Cursor) (kind : Kind) : Bool :=
  cursor.lookaheadKind = kind

/-- Consume the lookahead and load the token after it. -/
def advance (cursor : Cursor) : Cursor :=
  if cursor.position < cursor.tokens.size then
    { cursor with
      peeked := 0
      currentAt := cursor.lookaheadAt
      lookaheadAt := some cursor.position
      position := cursor.position + 1 }
  else
    { cursor with
      peeked := 0
      currentAt := cursor.lookaheadAt
      lookaheadAt := none }

/-- Consume a number of tokens. -/
def advanceBy : Nat → Cursor → Cursor
  | 0, cursor => cursor
  | count + 1, cursor => advanceBy count cursor.advance

/-- The token that the next look would show. -/
def glimpse (cursor : Cursor) : Option Token :=
  cursor.tokens[cursor.position + cursor.peeked]?

/-- Look at one more token.  Behind the last token nothing changes. -/
def peek (cursor : Cursor) : Option Token × Cursor :=
  match cursor.glimpse with
  | some token => (some token, { cursor with peeked := cursor.peeked + 1 })
  | none => (none, cursor)

/-- Let the next look show the token behind the lookahead again. -/
def resetPeek (cursor : Cursor) : Cursor :=
  { cursor with peeked := 0 }

/-- Let the next step load the token with the given index.  The tokens that
have been looked at stay counted. -/
def resetPosition (cursor : Cursor) (position : Nat) : Cursor :=
  { cursor with position := min position cursor.tokens.size }

/-- Forget the token consumed last and the lookahead. -/
def clear (cursor : Cursor) : Cursor :=
  { cursor with currentAt := none, lookaheadAt := none }

/-- The tokens that have not been loaded. -/
def upcoming (cursor : Cursor) : List Token :=
  cursor.tokens.toList.drop cursor.position

end Cursor

end Criteria
