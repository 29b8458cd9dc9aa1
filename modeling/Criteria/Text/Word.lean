/-!
# Words

The characters of a word, all of them ASCII, and the comparison of words that
ignores the case of ASCII letters.  Letters and digits outside ASCII belong to
no word.
-/

namespace Criteria

/-- A word starts with an ASCII letter or an underscore. -/
def isWordStart (character : Char) : Bool :=
  character.isAlpha || character = '_'

/-- A word goes on with ASCII letters, ASCII digits, underscores, colons and
backslashes. -/
def isWordPart (character : Char) : Bool :=
  character.isAlphanum || character = '_' || character = ':' || character = '\\'

/-- The characters of a text with every ASCII letter in upper case. -/
def foldCase (text : String) : List Char :=
  text.toList.map Char.toUpper

/-- Equality of two texts up to the case of ASCII letters. -/
def sameWord (left right : String) : Bool :=
  foldCase left = foldCase right

theorem isWordPart_of_isWordStart {character : Char}
    (start : isWordStart character) : isWordPart character := by
  simp only [isWordStart, isWordPart, Char.isAlphanum, Bool.or_eq_true] at *
  rcases start with letter | underscore
  · exact .inl (.inl (.inl (.inl letter)))
  · exact .inl (.inl (.inr underscore))

end Criteria
