/-!
# Numerals

A numeral is a run of digits, any number of groups made of a point and digits,
and perhaps an exponent.  A point or an exponent mark that no digit follows is
left to the next token.  How many points and whether an exponent occurred is
kept, since they decide what the numeral counts as.
-/

namespace Criteria

/-- Whether the text begins with an ASCII digit. -/
def startsWithDigit : List Char → Bool
  | [] => false
  | character :: _ => character.isDigit

/-- The part of a numeral before its exponent, and what follows it. -/
structure Mantissa where
  spelling : List Char
  points : Nat
  rest : List Char
  deriving DecidableEq, Repr

/-- Take digits, and points that a digit follows, as long as they last. -/
def readMantissa : List Char → Mantissa
  | [] => ⟨[], 0, []⟩
  | character :: rest =>
      if character.isDigit then
        let mantissa := readMantissa rest
        { mantissa with spelling := character :: mantissa.spelling }
      else if character = '.' && startsWithDigit rest then
        let mantissa := readMantissa rest
        { mantissa with
          spelling := character :: mantissa.spelling
          points := mantissa.points + 1 }
      else ⟨[], 0, character :: rest⟩

/-- Split off the sign of an exponent, if there is one. -/
def splitSign : List Char → List Char × List Char
  | [] => ([], [])
  | character :: rest =>
      if character = '+' || character = '-' then ([character], rest)
      else ([], character :: rest)

/-- Take an exponent: its mark, perhaps a sign, and at least one digit. -/
def readExponent : List Char → List Char × List Char
  | [] => ([], [])
  | character :: rest =>
      let (sign, digits) := splitSign rest
      if (character = 'e' || character = 'E') && startsWithDigit digits then
        (character :: (sign ++ digits.takeWhile Char.isDigit),
          digits.dropWhile Char.isDigit)
      else ([], character :: rest)

/-- A numeral as it was spelled. -/
structure Numeral where
  spelling : List Char
  points : Nat
  hasExponent : Bool
  deriving DecidableEq, Repr

/-- Take the longest numeral at the front of the text. -/
def readNumeral (input : List Char) : Numeral × List Char :=
  let mantissa := readMantissa input
  let (exponent, rest) := readExponent mantissa.rest
  (⟨mantissa.spelling ++ exponent, mantissa.points, !exponent.isEmpty⟩, rest)

theorem readMantissa_append (input : List Char) :
    (readMantissa input).spelling ++ (readMantissa input).rest = input := by
  induction input with
  | nil => rfl
  | cons character rest ih =>
      unfold readMantissa
      split
      · simp [ih]
      · split <;> simp [ih]

theorem splitSign_append (input : List Char) :
    (splitSign input).1 ++ (splitSign input).2 = input := by
  fun_cases splitSign input <;> simp_all

theorem readExponent_append (input : List Char) :
    (readExponent input).1 ++ (readExponent input).2 = input := by
  fun_cases readExponent input with
  | case1 => rfl
  | case2 character rest sign digits split taken =>
      have whole := splitSign_append rest
      rw [split] at whole
      simp [← whole]
  | case3 => simp

/-- A numeral and what follows it spell what was read. -/
theorem readNumeral_append (input : List Char) :
    (readNumeral input).1.spelling ++ (readNumeral input).2 = input := by
  simp only [readNumeral, List.append_assoc]
  rw [readExponent_append, readMantissa_append]

end Criteria
