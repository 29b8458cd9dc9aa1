import Criteria.Token.Basic

/-!
# Matching parentheses

Which closing parenthesis belongs to an opening one: the first behind it from
where the two kinds come in equal numbers, counted from the opening one on.
-/

namespace Criteria

namespace Token

/-- How many of the tokens are opening parentheses. -/
def countOpening (tokens : List Token) : Nat :=
  tokens.countP fun token => token.kind = .openParen

/-- How many of the tokens are closing parentheses. -/
def countClosing (tokens : List Token) : Nat :=
  tokens.countP fun token => token.kind = .closeParen

/-- The tokens from the one with the first index to the one with the last. -/
def stretch (tokens : List Token) (first last : Nat) : List Token :=
  (tokens.take (last + 1)).drop first

/-- Up to this index, and to no index before it, there are as many closing as
opening parentheses from the opening one on. -/
structure IsPartner (tokens : List Token) (opening closing : Nat) : Prop where
  behind : opening < closing
  inside : closing < tokens.length
  even : countClosing (stretch tokens opening closing) =
    countOpening (stretch tokens opening closing)
  first : ∀ earlier, opening < earlier → earlier < closing →
    countClosing (stretch tokens opening earlier) ≠
      countOpening (stretch tokens opening earlier)

end Token

end Criteria
