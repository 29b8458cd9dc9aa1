import Criteria.Text.Bytes
import Criteria.Token.Scan

/-!
# Scanning bytes

The tokens of an input found by walking over its UTF-8 bytes.  Characters are
looked at only to pass over blanks outside ASCII, and texts are cut out between
byte positions.  Every position is checked: the scan gives nothing as soon as a
piece cannot be cut out, a search starts behind the end, an offset is asked for
a position before an earlier one, or a step does not move forward.
-/

namespace Criteria

namespace ByteScan

/-- The byte of an ASCII character. -/
def code (character : Char) : UInt8 :=
  character.toUInt8

/-- The ASCII digits. -/
def isDigit (byte : UInt8) : Bool :=
  code '0' ≤ byte && byte ≤ code '9'

/-- The ASCII letters. -/
def isLetter (byte : UInt8) : Bool :=
  (code 'a' ≤ byte && byte ≤ code 'z') || (code 'A' ≤ byte && byte ≤ code 'Z')

/-- The bytes that start a word. -/
def isWordStart (byte : UInt8) : Bool :=
  isLetter byte || byte = code '_'

/-- The bytes with which a word goes on. -/
def isWordPart (byte : UInt8) : Bool :=
  isLetter byte || isDigit byte || byte = code '_' || byte = code ':' ||
    byte = code '\\'

/-- The bytes of a named placeholder after its first letter. -/
def isPlaceholderPart (byte : UInt8) : Bool :=
  isLetter byte || isDigit byte || byte = code '_'

/-- The blanks of ASCII apart from the vertical tab. -/
def isBlank (byte : UInt8) : Bool :=
  byte = 0x20 || byte = 0x9 || byte = 0xA || byte = 0xC || byte = 0xD

/-- Whether there is a byte at the position and it passes the test. -/
def passes (bytes : List UInt8) (position : Nat) (test : UInt8 → Bool) : Bool :=
  match bytes[position]? with
  | some byte => test byte
  | none => false

theorem lt_length_of_passes {bytes : List UInt8} {position : Nat}
    {test : UInt8 → Bool} (passed : passes bytes position test) :
    position < bytes.length := by
  apply Classical.byContradiction
  intro behind
  have missing : bytes[position]? = none :=
    List.getElem?_eq_none (Nat.le_of_not_lt behind)
  simp [passes, missing] at passed

/-- The first position from the given one on whose byte fails the test. -/
def passOver (bytes : List UInt8) (test : UInt8 → Bool) (position : Nat) : Nat :=
  if passed : passes bytes position test then
    passOver bytes test (position + 1)
  else position
termination_by bytes.length - position
decreasing_by
  have within := lt_length_of_passes passed
  omega

theorem le_passOver (bytes : List UInt8) (test : UInt8 → Bool) (position : Nat) :
    position ≤ passOver bytes test position := by
  fun_induction passOver bytes test position with
  | case1 position passed ih => omega
  | case2 => exact Nat.le_refl _

/-- Pass over groups of a point and digits, and count them. -/
def passGroups (bytes : List UInt8) (position points : Nat) : Nat × Nat :=
  if passed : passes bytes position (· = code '.') &&
      passes bytes (position + 1) isDigit then
    passGroups bytes (passOver bytes isDigit (position + 1)) (points + 1)
  else (position, points)
termination_by bytes.length - position
decreasing_by
  have within := lt_length_of_passes (Bool.and_eq_true_iff.mp passed).1
  have forward := le_passOver bytes isDigit (position + 1)
  omega

/-- Where an exponent that begins at the position ends, if there is one. -/
def exponentEnd? (bytes : List UInt8) (position : Nat) : Option Nat :=
  if passes bytes position fun byte => byte = code 'e' || byte = code 'E' then
    let digits :=
      if passes bytes (position + 1) fun byte =>
          byte = code '+' || byte = code '-' then position + 2
      else position + 1
    if passes bytes digits isDigit then some (passOver bytes isDigit digits)
    else none
  else none

/-- Where the numeral at the position ends, and its kind. -/
def numeralEnd (bytes : List UInt8) (position : Nat) : Nat × Kind :=
  let (groupsEnd, points) :=
    passGroups bytes (passOver bytes isDigit position) 0
  match exponentEnd? bytes groupsEnd with
  | some stop => (stop, if points ≤ 1 then .float else .unclassified)
  | none =>
      (groupsEnd,
        if points = 0 then .integer
        else if points = 1 then .float
        else .unclassified)

/-- The next quote from the position on; it is an error to search from behind
the end. -/
def findQuote? (bytes : List UInt8) (position : Nat) : Option (Option Nat) :=
  if position ≤ bytes.length then
    let found := passOver bytes (· ≠ code '\'') position
    some (if found < bytes.length then some found else none)
  else none

/-- The position of the quote that closes a quoted text whose content begins at
the position, if there is one.  `lastPair` is the first half of the last
doubled quote before the position. -/
def closingQuote? (bytes : List UInt8) (lastPair : Option Nat) (position : Nat) :
    Option (Option Nat) :=
  match findQuote? bytes position with
  | none => none
  | some none => some lastPair
  | some (some found) =>
      if doubled : passes bytes (found + 1) (· = code '\'') then
        if forward : position ≤ found then
          closingQuote? bytes (some found) (found + 2)
        else none
      else some (some found)
termination_by bytes.length - position
decreasing_by
  have within := lt_length_of_passes doubled
  omega

/-- The text with doubled quotes made single. -/
def joinQuotes : List Char → List Char
  | [] => []
  | '\'' :: '\'' :: rest => '\'' :: joinQuotes rest
  | character :: rest => character :: joinQuotes rest

/-- What begins at a position: a blank or a lexeme, and where it ends. -/
inductive Step where
  | blank (stop : Nat)
  | lexeme (lexeme : Lexeme) (stop : Nat)

/-- Where a step ends. -/
def Step.stop : Step → Nat
  | blank stop => stop
  | lexeme _ stop => stop

/-- The text between two positions as a lexeme of a given kind. -/
def cut? (text : List Char) (kind : List Char → Kind) (start stop : Nat) :
    Option Step :=
  match slice? text start stop with
  | some piece => some (.lexeme ⟨kind piece, piece⟩ stop)
  | none => none

/-- The quoted text that begins at a position, or a lone quote. -/
def quoted? (text : List Char) (bytes : List UInt8) (start : Nat) : Option Step :=
  match closingQuote? bytes none (start + 1) with
  | none => none
  | some none => some (.lexeme ⟨.unclassified, ['\'']⟩ (start + 1))
  | some (some close) =>
      match slice? text (start + 1) close with
      | some piece => some (.lexeme ⟨.string, joinQuotes piece⟩ (close + 1))
      | none => none

/-- The character that begins at a position: a blank or a stray character. -/
def character? (text : List Char) (start : Nat) : Option Step :=
  match sliceFrom? text start with
  | some (character :: _) =>
      let stop := start + character.utf8Size
      if Criteria.isBlank character then some (.blank stop)
      else some (.lexeme ⟨.unclassified, [character]⟩ stop)
  | _ => none

/-- What begins at a position with the given byte. -/
def step? (text : List Char) (bytes : List UInt8) (start : Nat) (byte : UInt8) :
    Option Step :=
  if isBlank byte then some (.blank (start + 1))
  else if isWordStart byte then
    cut? text (fun word => Kind.ofWord (String.ofList word)) start
      (passOver bytes isWordPart (start + 1))
  else if isDigit byte then
    let (stop, kind) := numeralEnd bytes start
    cut? text (fun _ => kind) start stop
  else if byte = code '\'' then quoted? text bytes start
  else if byte = code '?' then
    cut? text (fun _ => .unclassified) start (passOver bytes isDigit (start + 1))
  else if byte = code ':' && passes bytes (start + 1) isLetter then
    cut? text (fun _ => .unclassified) start
      (passOver bytes isPlaceholderPart (start + 2))
  else
    match symbols.find? fun symbol => code symbol = byte with
    | some symbol => some (.lexeme ⟨.ofSymbol symbol, [symbol]⟩ (start + 1))
    | none => character? text start
where
  /-- The characters that are lexemes by themselves. -/
  symbols : List Char := [',', '(', ')', '=', '>', '<', '!']

/-- A byte position up to which the characters have been counted. -/
structure Mark where
  byte : Nat
  offset : Nat
  deriving DecidableEq, Repr

/-- Count the characters up to a later position. -/
def Mark.moveTo? (mark : Mark) (text : List Char) (position : Nat) :
    Option Mark :=
  match slice? text mark.byte position with
  | some piece => some ⟨position, mark.offset + piece.length⟩
  | none => none

/-- The tokens from a position on, or nothing if a check fails. -/
def scan? (text : List Char) (bytes : List UInt8) (mark : Mark) (start : Nat) :
    Option (List Token) :=
  match _found : bytes[start]? with
  | none => some []
  | some byte =>
      match step? text bytes start byte with
      | none => none
      | some step =>
          if _forward : start < step.stop then
            match step with
            | .blank stop => scan? text bytes mark stop
            | .lexeme lexeme stop =>
                match mark.moveTo? text start with
                | none => none
                | some mark =>
                    match scan? text bytes mark stop with
                    | some tokens => some (lexeme.toToken mark.offset :: tokens)
                    | none => none
          else none
termination_by bytes.length - start
decreasing_by
  · have within := (List.getElem?_eq_some_iff.mp _found).1
    simp only [Step.stop] at _forward
    omega
  · have within := (List.getElem?_eq_some_iff.mp _found).1
    simp only [Step.stop] at _forward
    omega

end ByteScan

/-- The tokens of an input, found by walking over its bytes. -/
def tokenizeBytes? (input : String) : Option (List Token) :=
  ByteScan.scan? input.toList (utf8 input.toList) ⟨0, 0⟩ 0

end Criteria
