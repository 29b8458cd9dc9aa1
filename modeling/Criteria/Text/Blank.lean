/-!
# Blanks

A blank separates tokens and is otherwise ignored.  Blanks are the characters
with the Unicode property `White_Space`, given here by their code point ranges.
The ASCII separators U+001C to U+001F, U+180E, U+200B and U+FEFF lack that
property and are ordinary characters.
-/

namespace Criteria

/-- First and last code point of each run of blanks, in increasing order. -/
def blankRanges : List (Nat × Nat) :=
  [(0x9, 0xD), (0x20, 0x20), (0x85, 0x85), (0xA0, 0xA0), (0x1680, 0x1680),
    (0x2000, 0x200A), (0x2028, 0x2029), (0x202F, 0x202F), (0x205F, 0x205F),
    (0x3000, 0x3000)]

/-- Twenty-five characters are blank. -/
example :
    (blankRanges.flatMap fun range =>
      List.range' range.1 (range.2 + 1 - range.1)).length = 25 := by
  decide

/-- A blank lies in one of the blank ranges. -/
def isBlank (character : Char) : Bool :=
  blankRanges.any fun range =>
    range.1 ≤ character.toNat && character.toNat ≤ range.2

end Criteria
