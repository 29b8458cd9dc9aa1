import Criteria.Text.Blank
import Criteria.Text.Numeral
import Criteria.Token.Basic

/-!
# Scanning

`tokenize` cuts an input into tokens and never fails: what fits no category
becomes an unclassified token.  One step, `readLexeme`, takes a lexeme from the
front of a non-blank rest.  `readLexeme_append` says that a step loses nothing,
and this is also why the scan ends.
-/

namespace Criteria

/-- A classified text, before its place in the input is known. -/
structure Lexeme where
  kind : Kind
  text : List Char
  deriving DecidableEq, Repr

namespace Lexeme

/-- The piece of the input that the lexeme was read from. -/
def spelling (lexeme : Lexeme) : List Char :=
  lexeme.kind.spell lexeme.text

/-- The lexeme as a token at the given offset. -/
def toToken (lexeme : Lexeme) (offset : Nat) : Token :=
  ⟨lexeme.kind, String.ofList lexeme.text, offset⟩

end Lexeme

/-- Without points and exponent a numeral is an integer, with at most one point
a float; with more points it is no number. -/
def Numeral.kind (numeral : Numeral) : Kind :=
  if numeral.points = 0 && !numeral.hasExponent then .integer
  else if numeral.points ≤ 1 then .float
  else .unclassified

/-- The characters of a named placeholder after its first letter. -/
def isPlaceholderPart (character : Char) : Bool :=
  character.isAlphanum || character = '_'

/-- Whether the text begins with an ASCII letter. -/
def startsWithLetter : List Char → Bool
  | [] => false
  | character :: _ => character.isAlpha

/-- Take the lexeme that begins with the given non-blank character. -/
def readLexeme (first : Char) (rest : List Char) : Lexeme × List Char :=
  if isWordStart first then
    let word := first :: rest.takeWhile isWordPart
    (⟨Kind.ofWord (String.ofList word), word⟩, rest.dropWhile isWordPart)
  else if first.isDigit then
    let (numeral, after) := readNumeral (first :: rest)
    (⟨numeral.kind, numeral.spelling⟩, after)
  else if first = '\'' then
    match readQuoted rest with
    | some (content, after) => (⟨.string, content⟩, after)
    | none => (⟨.unclassified, [first]⟩, rest)
  else if first = '?' then
    (⟨.unclassified, first :: rest.takeWhile Char.isDigit⟩,
      rest.dropWhile Char.isDigit)
  else if first = ':' && startsWithLetter rest then
    (⟨.unclassified, first :: rest.takeWhile isPlaceholderPart⟩,
      rest.dropWhile isPlaceholderPart)
  else (⟨.ofSymbol first, [first]⟩, rest)

theorem Kind.spell_of_ne {kind : Kind} (other : kind ≠ .string)
    (text : List Char) : kind.spell text = text :=
  if_neg other

theorem Kind.ofWord_ne_string (word : String) : ofWord word ≠ .string := by
  intro same
  have wordLike := isWordLike_ofWord word
  rw [same] at wordLike
  exact absurd wordLike (by decide)

theorem Kind.ofSymbol_ne_string (character : Char) :
    ofSymbol character ≠ .string := by
  unfold ofSymbol
  split <;> decide

theorem Numeral.kind_ne_string (numeral : Numeral) : numeral.kind ≠ .string := by
  unfold Numeral.kind
  split
  · decide
  · split <;> decide

/-- The spelling of the lexeme and the remainder make up what was read. -/
theorem readLexeme_append (first : Char) (rest : List Char) :
    (readLexeme first rest).1.spelling ++ (readLexeme first rest).2 =
      first :: rest := by
  unfold readLexeme
  split
  · simp [Lexeme.spelling, Kind.spell_of_ne (Kind.ofWord_ne_string _)]
  split
  · simp [Lexeme.spelling, Kind.spell_of_ne (Numeral.kind_ne_string _),
      readNumeral_append]
  split
  · rename_i isQuote
    cases read : readQuoted rest with
    | none => simp [Lexeme.spelling, Kind.spell]
    | some result =>
        obtain ⟨content, after⟩ := result
        simp [Lexeme.spelling, Kind.spell, quote, isQuote,
          eq_of_readQuoted read]
  split
  · simp [Lexeme.spelling, Kind.spell]
  split
  · simp [Lexeme.spelling, Kind.spell]
  · simp [Lexeme.spelling, Kind.spell_of_ne (Kind.ofSymbol_ne_string _)]

/-- The spelling of a lexeme is not empty. -/
theorem spelling_readLexeme_ne_nil (first : Char) (rest : List Char) :
    (readLexeme first rest).1.spelling ≠ [] := by
  unfold readLexeme
  split
  · simp [Lexeme.spelling, Kind.spell_of_ne (Kind.ofWord_ne_string _)]
  split
  · rename_i digit
    simp [Lexeme.spelling, Kind.spell_of_ne (Numeral.kind_ne_string _),
      readNumeral, readMantissa, digit]
  split
  · cases readQuoted rest with
    | none => simp [Lexeme.spelling, Kind.spell]
    | some result => simp [Lexeme.spelling, Kind.spell, quote]
  split
  · simp [Lexeme.spelling, Kind.spell]
  split
  · simp [Lexeme.spelling, Kind.spell]
  · simp [Lexeme.spelling, Kind.spell_of_ne (Kind.ofSymbol_ne_string _)]

/-- A step of the scan makes the rest shorter. -/
theorem length_rest_readLexeme (first : Char) (rest : List Char) :
    (readLexeme first rest).2.length < (first :: rest).length := by
  have whole := congrArg List.length (readLexeme_append first rest)
  have taken := List.length_pos_iff.mpr (spelling_readLexeme_ne_nil first rest)
  simp only [List.length_append] at whole
  omega

/-- The tokens of a text that begins at the given offset of the input. -/
def scan (offset : Nat) : List Char → List Token
  | [] => []
  | first :: rest =>
      if isBlank first then scan (offset + 1) rest
      else
        let step := readLexeme first rest
        step.1.toToken offset :: scan (offset + step.1.spelling.length) step.2
termination_by text => text.length
decreasing_by
  · simp
  · exact length_rest_readLexeme first rest

/-- The tokens of an input, in order. -/
def tokenize (input : String) : List Token :=
  scan 0 input.toList

end Criteria
