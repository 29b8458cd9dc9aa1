import Criteria.Text.Word

/-!
# Classes of texts

Which texts are words and which are numerals, said of the complete text and
without a way of reading it.
-/

namespace Criteria

/-- A word is a start followed by parts. -/
def isWord : List Char → Bool
  | [] => false
  | first :: rest => isWordStart first && rest.all isWordPart

/-- One or more ASCII digits. -/
def isDigits (text : List Char) : Bool :=
  !text.isEmpty && text.all Char.isDigit

/-- Groups of digits, each after a point. -/
def afterPoints (groups : List (List Char)) : List Char :=
  groups.flatMap fun group => '.' :: group

/-- An exponent is a mark, perhaps a sign, and digits. -/
inductive IsExponent : List Char → Prop where
  | intro {mark : Char} {sign digits : List Char}
      (isMark : mark = 'e' ∨ mark = 'E')
      (isSign : sign = [] ∨ sign = ['+'] ∨ sign = ['-'])
      (areDigits : isDigits digits) :
      IsExponent (mark :: (sign ++ digits))

/-- A numeral with so many points, and with an exponent or without one. -/
inductive IsNumeral : List Char → (points : Nat) → (hasExponent : Bool) → Prop where
  | plain {whole : List Char} {groups : List (List Char)}
      (wholeDigits : isDigits whole)
      (groupDigits : ∀ group ∈ groups, isDigits group) :
      IsNumeral (whole ++ afterPoints groups) groups.length false
  | scientific {whole exponent : List Char} {groups : List (List Char)}
      (wholeDigits : isDigits whole)
      (groupDigits : ∀ group ∈ groups, isDigits group)
      (isExponent : IsExponent exponent) :
      IsNumeral (whole ++ afterPoints groups ++ exponent) groups.length true

/-- The spelling of a number: a numeral with at most one point. -/
def IsNumber (text : List Char) : Prop :=
  ∃ points hasExponent, IsNumeral text points hasExponent ∧ points ≤ 1

end Criteria
