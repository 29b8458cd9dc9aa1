import Criteria.Text.Blank
import Criteria.Token.Basic

/-!
# Layout

A text made of pieces with gaps between them: a gap in front, and a gap behind
every piece.  The pieces of an input are the spellings of its tokens, and the
gaps are blanks.
-/

namespace Criteria

/-- A gap holds nothing but blanks. -/
def isGap (text : List Char) : Bool :=
  text.all isBlank

/-- The text of a gap followed by pieces, each with a gap behind it. -/
def weave (lead : List Char) (pieces : List (List Char × List Char)) :
    List Char :=
  lead ++ pieces.flatMap fun piece => piece.1 ++ piece.2

/-- The text of tokens, given by their spellings, with the given gaps behind
them. -/
def layOut (lead : List Char) (tokens : List Token) (gaps : List (List Char)) :
    List Char :=
  weave lead ((tokens.map Token.spelling).zip gaps)

/-- Two tokens that differ in their place at most. -/
def Token.Alike (left right : Token) : Prop :=
  left.kind = right.kind ∧ left.text = right.text

/-- The token moved to the right. -/
def Token.shift (distance : Nat) (token : Token) : Token :=
  { token with offset := token.offset + distance }

end Criteria
