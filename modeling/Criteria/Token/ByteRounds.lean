import Criteria.Token.ByteScan

/-!
# Rounds of the scan of the bytes

Where the loops of the scan stand.  The outer loop visits a position for each
blank and each lexeme.  Within one step there are loops over runs of bytes, over
the groups of a numeral, and over the quotes of a quoted text; each of their
rounds begins at a position of its own.
-/

namespace Criteria

namespace ByteScan

/-- The positions at which the scan begins a step, with the mark it has then. -/
inductive Visits (text : List Char) : Mark → Nat → Prop where
  | start : Visits text ⟨0, 0⟩ 0
  | blank {mark : Mark} {start stop : Nat} {byte : UInt8}
      (visited : Visits text mark start) (found : (utf8 text)[start]? = some byte)
      (taken : step? text (utf8 text) start byte = some (.blank stop)) :
      Visits text mark stop
  | lexeme {mark next : Mark} {start stop : Nat} {byte : UInt8} {lexeme : Lexeme}
      (visited : Visits text mark start) (found : (utf8 text)[start]? = some byte)
      (taken : step? text (utf8 text) start byte = some (.lexeme lexeme stop))
      (moved : mark.moveTo? text start = some next) :
      Visits text next stop

/-- The loops within a step. -/
inductive Loop where
  /-- Over bytes that pass a test. -/
  | run (test : UInt8 → Bool)
  /-- Over groups of a point and digits. -/
  | groups
  /-- Over doubled quotes. -/
  | quotes

/-- The positions at which the loops of a step from `start` begin a round. -/
inductive Rounds (bytes : List UInt8) (start : Nat) : Loop → Nat → Prop where
  | word (starts : passes bytes start isWordStart) :
      Rounds bytes start (.run isWordPart) (start + 1)
  | whole (starts : passes bytes start isDigit) :
      Rounds bytes start (.run isDigit) start
  | numbered (starts : passes bytes start (· = code '?')) :
      Rounds bytes start (.run isDigit) (start + 1)
  | named (starts : passes bytes start (· = code ':'))
      (letter : passes bytes (start + 1) isLetter) :
      Rounds bytes start (.run isPlaceholderPart) (start + 2)
  | next {test : UInt8 → Bool} {position : Nat}
      (stands : Rounds bytes start (.run test) position)
      (passed : passes bytes position test) :
      Rounds bytes start (.run test) (position + 1)
  | mantissa (starts : passes bytes start isDigit) :
      Rounds bytes start .groups (passOver bytes isDigit start)
  | group {position : Nat} (stands : Rounds bytes start .groups position)
      (point : passes bytes position (· = code '.'))
      (digit : passes bytes (position + 1) isDigit) :
      Rounds bytes start (.run isDigit) (position + 1)
  | groupEnd {position : Nat} (stands : Rounds bytes start .groups position)
      (point : passes bytes position (· = code '.'))
      (digit : passes bytes (position + 1) isDigit) :
      Rounds bytes start .groups (passOver bytes isDigit (position + 1))
  | exponent {position digits : Nat} (stands : Rounds bytes start .groups position)
      (mark : passes bytes position fun byte => byte = code 'e' || byte = code 'E')
      (sign : digits = if passes bytes (position + 1) fun byte =>
          byte = code '+' || byte = code '-' then position + 2 else position + 1)
      (digit : passes bytes digits isDigit) :
      Rounds bytes start (.run isDigit) digits
  | content (starts : passes bytes start (· = code '\'')) :
      Rounds bytes start .quotes (start + 1)
  | pair {position found : Nat} (stands : Rounds bytes start .quotes position)
      (isFound : findQuote? bytes position = some (some found))
      (doubled : passes bytes (found + 1) (· = code '\'')) :
      Rounds bytes start .quotes (found + 2)

/-- What holds of the positions of a step: each piece that it cuts out, and each
piece whose characters it counts, begins and ends between two characters, in
this order. -/
structure Secure (input : String) (mark : Mark) (start : Nat) (step : Step) : Prop where
  start_valid : String.Pos.Raw.IsValid input ⟨start⟩
  stop_valid : String.Pos.Raw.IsValid input ⟨step.stop⟩
  forward : start < step.stop
  /-- There is a character where the step begins. -/
  character : ∃ first rest, sliceFrom? input.toList start = some (first :: rest)
  mark_valid : String.Pos.Raw.IsValid input ⟨mark.byte⟩
  mark_le : mark.byte ≤ start
  /-- The mark is moved to the number of characters before the step. -/
  counted : ∃ front, front <+: input.toList ∧ (utf8 front).length = start ∧
    mark.moveTo? input.toList start = some ⟨start, front.length⟩
  /-- The content of a quoted text ends behind its opening quote. -/
  content : ∀ close, passes (utf8 input.toList) start (· = code '\'') →
    closingQuote? (utf8 input.toList) none (start + 1) = some (some close) →
    start + 1 ≤ close ∧ String.Pos.Raw.IsValid input ⟨close⟩ ∧ step.stop = close + 1
  rounds : ∀ loop position, Rounds (utf8 input.toList) start loop position →
    start ≤ position ∧ String.Pos.Raw.IsValid input ⟨position⟩

end ByteScan

end Criteria
