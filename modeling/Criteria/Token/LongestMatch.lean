import Criteria.Text.Lexical
import Criteria.Token.Scan

/-!
# Longest match

The lexical grammar, and cutting an input by it: blanks are dropped, at any
other place the longest lexeme of the grammar is taken, and a character at
which no lexeme begins becomes an unclassified token.
-/

namespace Criteria

/-- The characters that are lexemes by themselves. -/
def symbols : List Char :=
  [',', '(', ')', '=', '>', '<', '!']

/-- The lexemes of the grammar. -/
inductive Lexical : Lexeme → Prop where
  | word {text : List Char} (form : isWord text) :
      Lexical ⟨Kind.ofWord (String.ofList text), text⟩
  | integer {text : List Char} (form : IsNumeral text 0 false) :
      Lexical ⟨.integer, text⟩
  | float {text : List Char} {points : Nat} {hasExponent : Bool}
      (form : IsNumeral text points hasExponent) (few : points ≤ 1)
      (marked : points = 1 ∨ hasExponent = true) :
      Lexical ⟨.float, text⟩
  | manyPoints {text : List Char} {points : Nat} {hasExponent : Bool}
      (form : IsNumeral text points hasExponent) (many : 2 ≤ points) :
      Lexical ⟨.unclassified, text⟩
  | string (content : List Char) : Lexical ⟨.string, content⟩
  | numbered {digits : List Char} (form : digits.all Char.isDigit) :
      Lexical ⟨.unclassified, '?' :: digits⟩
  | named {first : Char} {rest : List Char} (letter : first.isAlpha)
      (form : rest.all isPlaceholderPart) :
      Lexical ⟨.unclassified, ':' :: first :: rest⟩
  | symbol {character : Char} (form : character ∈ symbols) :
      Lexical ⟨.ofSymbol character, [character]⟩

/-- The lexeme can be taken from the front of the input. -/
def Lexeme.Begins (lexeme : Lexeme) (input : List Char) : Prop :=
  Lexical lexeme ∧ lexeme.spelling <+: input

/-- The lexeme can be taken from the front of the input, and none with a longer
spelling can. -/
def Lexeme.IsLongest (lexeme : Lexeme) (input : List Char) : Prop :=
  lexeme.Begins input ∧
    ∀ other : Lexeme, other.Begins input →
      other.spelling.length ≤ lexeme.spelling.length

/-- Cutting a text that begins at an offset of the input into tokens. -/
inductive LongestMatch : Nat → List Char → List Token → Prop where
  | done {offset : Nat} : LongestMatch offset [] []
  | blank {offset : Nat} {first : Char} {rest : List Char} {tokens : List Token}
      (isBlank : isBlank first) (others : LongestMatch (offset + 1) rest tokens) :
      LongestMatch offset (first :: rest) tokens
  | lexeme {offset : Nat} {first : Char} {rest after : List Char}
      {lexeme : Lexeme} {tokens : List Token}
      (notBlank : isBlank first = false)
      (longest : lexeme.IsLongest (first :: rest))
      (remainder : first :: rest = lexeme.spelling ++ after)
      (others : LongestMatch (offset + lexeme.spelling.length) after tokens) :
      LongestMatch offset (first :: rest) (lexeme.toToken offset :: tokens)
  | stray {offset : Nat} {first : Char} {rest : List Char} {tokens : List Token}
      (notBlank : isBlank first = false)
      (noLexeme : ∀ lexeme : Lexeme, ¬ lexeme.Begins (first :: rest))
      (others : LongestMatch (offset + 1) rest tokens) :
      LongestMatch offset (first :: rest)
        (Lexeme.toToken ⟨.unclassified, [first]⟩ offset :: tokens)

end Criteria
