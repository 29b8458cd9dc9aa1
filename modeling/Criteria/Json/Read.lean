import Criteria.Json.Basic
import Criteria.Text.Numeral

/-!
# Reading JSON

`Json.read?` reads a complete JSON text, with blanks between its parts.  The
readers of the parts take a value from the front of a text and return what
follows.  They recurse on a bound; `Json.read?` takes it from the length of the
text, and every second step of the readers takes a character.
-/

namespace Criteria

namespace Json

/-- The text without the blanks at its front.  Only four characters are blanks
between the parts of a JSON text. -/
def skipBlanks (input : List Char) : List Char :=
  input.dropWhile fun character =>
    character = ' ' || character = '\t' || character = '\n' || character = '\r'

/-- The value of a hexadecimal digit in either case. -/
def hexDigitValue? (digit : Char) : Option Nat :=
  if digit.isDigit then some (digit.toNat - '0'.toNat)
  else if 'a' ≤ digit && digit ≤ 'f' then some (digit.toNat - 'a'.toNat + 10)
  else if 'A' ≤ digit && digit ≤ 'F' then some (digit.toNat - 'A'.toNat + 10)
  else none

/-- The value of four hexadecimal digits. -/
def codeUnit? (first second third fourth : Char) : Option Nat := do
  let first ← hexDigitValue? first
  let second ← hexDigitValue? second
  let third ← hexDigitValue? third
  let fourth ← hexDigitValue? fourth
  return ((first * 16 + second) * 16 + third) * 16 + fourth

/-- The first halves of the pairs that stand for characters above U+FFFF. -/
def isHighHalf (unit : Nat) : Bool :=
  0xD800 ≤ unit && unit < 0xDC00

/-- The second halves of such pairs. -/
def isLowHalf (unit : Nat) : Bool :=
  0xDC00 ≤ unit && unit < 0xE000

/-- The character that a pair of halves stands for. -/
def joinHalves (high low : Nat) : Char :=
  Char.ofNat (0x10000 + (high - 0xD800) * 0x400 + (low - 0xDC00))

/-- The character that a one-character escape stands for. -/
def unescape? : Char → Option Char
  | '"' => some '"'
  | '\\' => some '\\'
  | '/' => some '/'
  | 'b' => some '\x08'
  | 't' => some '\t'
  | 'n' => some '\n'
  | 'f' => some '\x0C'
  | 'r' => some '\r'
  | _ => none

/-- Put a character in front of a content that was read. -/
def prepend (character : Char) (content : List Char × List Char) :
    List Char × List Char :=
  (character :: content.1, content.2)

/-- Read a text up to its closing quotation mark.  Halves of pairs must come
together, and control characters must be escaped. -/
def readText : List Char → Option (List Char × List Char)
  | [] => none
  | '"' :: rest => some ([], rest)
  | '\\' :: 'u' :: a :: b :: c :: d :: '\\' :: 'u' :: e :: f :: g :: h :: rest =>
      match codeUnit? a b c d, codeUnit? e f g h with
      | some high, some low =>
          if isHighHalf high && isLowHalf low then
            (readText rest).map (prepend (joinHalves high low))
          else if isHighHalf high || isLowHalf high then none
          else
            (readText ('\\' :: 'u' :: e :: f :: g :: h :: rest)).map
              (prepend (Char.ofNat high))
      | _, _ => none
  | '\\' :: 'u' :: a :: b :: c :: d :: rest =>
      match codeUnit? a b c d with
      | some unit =>
          if isHighHalf unit || isLowHalf unit then none
          else (readText rest).map (prepend (Char.ofNat unit))
      | none => none
  | '\\' :: mark :: rest =>
      match unescape? mark with
      | some character => (readText rest).map (prepend character)
      | none => none
  | character :: rest =>
      if character = '\\' || character.toNat < 0x20 then none
      else (readText rest).map (prepend character)
termination_by structural input => input

/-- Read a number, which is kept as it is spelled. -/
def readNumber (input : List Char) : Option (Json × List Char) :=
  let (sign, digits) := input.span fun character => character = '-'
  let (numeral, rest) := readNumeral digits
  if sign.length ≤ 1 && startsWithDigit digits && numeral.points ≤ 1 then
    some (number (String.ofList (sign ++ numeral.spelling)), rest)
  else none

mutual

/-- Read a value from the front of a text. -/
def readValue : Nat → List Char → Option (Json × List Char)
  | 0, _ => none
  | bound + 1, input =>
      match skipBlanks input with
      | '"' :: rest =>
          (readText rest).map fun read => (text (String.ofList read.1), read.2)
      | '[' :: rest =>
          match skipBlanks rest with
          | ']' :: after => some (list [], after)
          | items =>
              (readItems bound items).map fun read => (list read.1, read.2)
      | '\x7b' :: rest =>
          match skipBlanks rest with
          | '\x7d' :: after => some (record [], after)
          | members =>
              (readMembers bound members).map fun read =>
                (record read.1, read.2)
      | 'n' :: 'u' :: 'l' :: 'l' :: rest => some (null, rest)
      | 't' :: 'r' :: 'u' :: 'e' :: rest => some (bool true, rest)
      | 'f' :: 'a' :: 'l' :: 's' :: 'e' :: rest => some (bool false, rest)
      | rest => readNumber rest

/-- Read the items of a list up to its closing bracket. -/
def readItems : Nat → List Char → Option (List Json × List Char)
  | 0, _ => none
  | bound + 1, input =>
      match readValue bound input with
      | none => none
      | some (item, rest) =>
          match skipBlanks rest with
          | ',' :: more =>
              (readItems bound more).map fun read => (item :: read.1, read.2)
          | ']' :: after => some ([item], after)
          | _ => none

/-- Read the members of a record up to its closing brace. -/
def readMembers : Nat → List Char → Option (List (String × Json) × List Char)
  | 0, _ => none
  | bound + 1, input =>
      match skipBlanks input with
      | '"' :: rest =>
          match readText rest with
          | none => none
          | some (name, afterName) =>
              match skipBlanks afterName with
              | ':' :: afterColon =>
                  match readValue bound afterColon with
                  | none => none
                  | some (value, afterValue) =>
                      match skipBlanks afterValue with
                      | ',' :: more =>
                          (readMembers bound more).map fun read =>
                            ((String.ofList name, value) :: read.1, read.2)
                      | '\x7d' :: after =>
                          some ([(String.ofList name, value)], after)
                      | _ => none
              | _ => none
      | _ => none

end

/-- Read a complete JSON text. -/
def read? (input : String) : Option Json :=
  match readValue (2 * input.length + 2) input.toList with
  | some (value, rest) => if (skipBlanks rest).isEmpty then some value else none
  | none => none

end Json

end Criteria
