import Criteria.Token.Basic

/-!
# Rules

A rule reads a value from the front of a list of tokens.  Its run ends with the
value or with a fault, and in either case with the tokens that were not
consumed: after a fault the first of them is the offending token.  A run also
tells which levels of nesting were opened, in order, and how many of them were
still open at its end.
-/

namespace Criteria

/-- What a rule may find missing. -/
inductive Expectation where
  /-- A token of the given kind. -/
  | kind (kind : Kind)
  | literal
  /-- What a text is matched with. -/
  | pattern
  | relOp
  deriving DecidableEq, Repr, Inhabited

/-- The name of an expectation in a diagnostic. -/
def Expectation.describe : Expectation → String
  | kind wanted => wanted.describe
  | literal => "Literal"
  | pattern => "identifier | string"
  | relOp => "=, <, <=, <>, >, >=, !="

/-- Why a run ended without a value. -/
inductive Fault where
  | expected (what : Expectation)
  | tooDeep
  deriving DecidableEq, Repr, Inhabited

/-- A level of nesting that was opened. -/
structure Opening where
  /-- The level, counted from the level of the rule itself. -/
  level : Nat
  /-- The tokens that were left when the level was opened. -/
  tokens : List Token
  deriving DecidableEq, Repr

/-- The same opening seen from one level further out. -/
def Opening.raise (opening : Opening) : Opening :=
  { opening with level := opening.level + 1 }

/-- How a rule came out on a list of tokens. -/
structure Run (α : Type) where
  result : Except Fault α
  /-- The tokens that were not consumed. -/
  rest : List Token
  /-- The levels opened, in order. -/
  openings : List Opening
  /-- How many of the opened levels were not closed. -/
  unclosed : Nat

/-- The deepest level opened, zero if none was. -/
def Run.height {α : Type} (run : Run α) : Nat :=
  run.openings.foldr (fun opening height => max opening.level height) 0

/-- A reader of the front of a list of tokens. -/
def Rule (α : Type) : Type :=
  List Token → Run α

namespace Rule

/-- Consume nothing. -/
protected def pure {α : Type} (value : α) : Rule α := fun tokens =>
  ⟨.ok value, tokens, [], 0⟩

/-- Go on where the first rule stopped, unless it found a fault. -/
protected def bind {α β : Type} (first : Rule α) (next : α → Rule β) : Rule β :=
  fun tokens =>
    match first tokens with
    | ⟨.ok value, rest, openings, unclosed⟩ =>
        let run := next value rest
        { run with
          openings := openings ++ run.openings
          unclosed := unclosed + run.unclosed }
    | ⟨.error fault, rest, openings, unclosed⟩ =>
        ⟨.error fault, rest, openings, unclosed⟩

instance : Monad Rule where
  pure := Rule.pure
  bind := Rule.bind

/-- Find a fault before the first token. -/
def fail {α : Type} (fault : Fault) : Rule α := fun tokens =>
  ⟨.error fault, tokens, [], 0⟩

/-- The kind of the first token, which is not consumed. -/
def upcoming : Rule Kind := fun tokens =>
  ⟨.ok (Token.headKind tokens), tokens, [], 0⟩

/-- Ask a question about the tokens without consuming any. -/
def ask {α : Type} (question : List Token → α) : Rule α := fun tokens =>
  ⟨.ok (question tokens), tokens, [], 0⟩

/-- Consume a token that may stand for the given kind. -/
def expect (kind : Kind) : Rule Token
  | [] => ⟨.error (.expected (.kind kind)), [], [], 0⟩
  | token :: rest =>
      if kind.accepts token.kind then ⟨.ok token, rest, [], 0⟩
      else ⟨.error (.expected (.kind kind)), token :: rest, [], 0⟩

/-- Consume a token of exactly the given kind if there is one, and say whether
there was. -/
def optional (kind : Kind) : Rule Bool
  | [] => ⟨.ok false, [], [], 0⟩
  | token :: rest =>
      if token.kind = kind then ⟨.ok true, rest, [], 0⟩
      else ⟨.ok false, token :: rest, [], 0⟩

/-- Insist that all tokens have been consumed. -/
def finish : Rule Unit
  | [] => ⟨.ok (), [], [], 0⟩
  | token :: rest =>
      ⟨.error (.expected (.kind .endOfInput)), token :: rest, [], 0⟩

/-- Items with separators between them, with at most so many separators. -/
def sepByUpTo {α : Type} (separator : Kind) (item : Rule α) : Nat → Rule (List α)
  | 0 => do
      let last ← item
      return [last]
  | bound + 1 => do
      let first ← item
      if ← optional separator then
        let others ← sepByUpTo separator item bound
        return first :: others
      else return [first]

/-- One or more items with separators between them.  Every separator is a
token, so their number bounds the items. -/
def sepBy {α : Type} (separator : Kind) (item : Rule α) : Rule (List α) :=
  fun tokens => sepByUpTo separator item tokens.length tokens

/-- Run a rule one level deeper.  The level is closed when the rule succeeds
and stays open after a fault. -/
def deepen {α : Type} (rule : Rule α) : Rule α := fun tokens =>
  let run := rule tokens
  { run with
    openings := ⟨1, tokens⟩ :: run.openings.map Opening.raise
    unclosed := match run.result with
      | .ok _ => run.unclosed
      | .error _ => run.unclosed + 1 }

/-- Open a level that is no longer allowed. -/
def tooDeep {α : Type} : Rule α := deepen (fail .tooDeep)

end Rule

end Criteria
