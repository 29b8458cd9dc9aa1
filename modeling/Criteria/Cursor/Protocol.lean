import Criteria.Cursor.Step

/-!
# What a cursor shows

What the operations of a cursor have to answer, said of the tokens and of two
numbers that can be read off a walk from outside: how often it advanced, and how
many looks have shown a token since it last advanced or began its looks anew.
-/

namespace Criteria

/-- The token in front of the one with the given index. -/
def tokenBefore (tokens : List Token) : Nat → Option Token
  | 0 => none
  | index + 1 => tokens[index]?

namespace Cursor

/-- A cursor before the first of the given tokens; nothing is loaded yet. -/
def ofTokens (text : String) (tokens : List Token) : Cursor where
  text := text
  tokens := tokens.toArray
  position := 0
  peeked := 0
  currentAt := none
  lookaheadAt := none

namespace Step

/-- Whether the operation leaves the place of the cursor and both of its tokens
alone. -/
def looks : Step → Bool
  | peek | glimpse | resetPeek | isNext _ => true
  | advance | resetPosition _ | clear => false

/-- Whether the operation looks or goes on to the next token. -/
def walks (step : Step) : Bool :=
  step = advance || step.looks

end Step

/-- What can be counted of a walk: the calls of `advance`, and the looks since
the last of them, or since the looks began anew, that showed a token. -/
structure Count where
  advances : Nat
  seen : Nat
  deriving DecidableEq, Repr

namespace Count

/-- Count an operation by what it answered. -/
def add (count : Count) : Step × Answer → Count
  | (.advance, _) => ⟨count.advances + 1, 0⟩
  | (.resetPeek, _) => { count with seen := 0 }
  | (.peek, .token (some _)) => { count with seen := count.seen + 1 }
  | _ => count

/-- Count the operations of a walk with their answers. -/
def ofWalk (steps : List Step) (answers : List Answer) : Count :=
  (steps.zip answers).foldl add ⟨0, 0⟩

/-- The token that the next look shows. -/
def next (count : Count) (tokens : List Token) : Option Token :=
  tokens[min count.advances tokens.length + count.seen]?

end Count

/-- What a cursor over the tokens shows and answers after a walk that comes to
the given count. -/
structure Shows (cursor : Cursor) (tokens : List Token) (count : Count) :
    Prop where
  lookahead : cursor.lookahead = tokenBefore tokens count.advances
  current : cursor.current = tokenBefore tokens (count.advances - 1)
  advance : (cursor.step .advance).1 =
    .flag (count.advances + 1 ≤ tokens.length)
  peek : (cursor.step .peek).1 = .token (count.next tokens)
  peekAtEnd : count.next tokens = none → (cursor.step .peek).2 = cursor
  glimpse : cursor.step .glimpse = ((cursor.step .peek).1, cursor)
  isNext : ∀ kind, cursor.step (.isNext kind) =
    (.flag (Token.headKind (tokenBefore tokens count.advances).toList = kind),
      cursor)
  looksKeep : ∀ step, step.looks →
    (cursor.step step).2.current = cursor.current ∧
      (cursor.step step).2.lookahead = cursor.lookahead

end Cursor

end Criteria
