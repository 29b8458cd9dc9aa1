import Criteria.Proofs.Token.ByteScan
import Criteria.Token.ByteRounds

/-!
# Secure positions of the scan of the bytes

The invariants of the loops of the scan.  The outer loop stands at the place
behind some characters, with a mark behind some of these (`Visits.exists_front`).
The loops within a step go over bytes of ASCII and over quotes, and from a valid
position each of their rounds leads to another one (`Rounds.valid`).
-/

namespace Criteria

namespace ByteScan

section Valid

variable {input : String} {position : Nat}

/-- The valid positions are the places behind some first characters. -/
theorem isValid_iff :
    String.Pos.Raw.IsValid input ⟨position⟩ ↔
      ∃ front back, input.toList = front ++ back ∧ position = place front := by
  rw [String.Pos.Raw.isValid_iff_exists_append]
  constructor
  · rintro ⟨before, after, whole, isEnd⟩
    refine ⟨before.toList, after.toList, ?_, ?_⟩
    · rw [whole, String.toList_append]
    · rw [place_toList]
      exact congrArg String.Pos.Raw.byteIdx isEnd
  · rintro ⟨front, back, whole, rfl⟩
    refine ⟨String.ofList front, String.ofList back, ?_, ?_⟩
    · rw [← String.ofList_append, ← whole, String.ofList_toList]
    · have size := place_toList (String.ofList front)
      rw [String.toList_ofList] at size
      rw [size]
      rfl

end Valid

/-- Only first bytes of ASCII characters pass the test. -/
def TakesAscii (test : UInt8 → Bool) : Prop :=
  ∀ character, test (leadByte character) → character.toNat < 128

namespace TakesAscii

theorem isWordPart : TakesAscii isWordPart := by
  intro character passed
  rw [isWordPart_leadByte] at passed
  exact (toNat_of_isWordPart passed).2

/-- A test that is stricter than that of a word takes ASCII only. -/
theorem of_isWordPart {test : UInt8 → Bool}
    (stricter : ∀ byte, test byte → ByteScan.isWordPart byte) : TakesAscii test := by
  intro character passed
  exact isWordPart character (stricter _ passed)

theorem isDigit : TakesAscii isDigit := by
  apply of_isWordPart
  intro byte digit
  simp [ByteScan.isWordPart, digit]

theorem isLetter : TakesAscii isLetter := by
  apply of_isWordPart
  intro byte letter
  simp [ByteScan.isWordPart, letter]

theorem isPlaceholderPart : TakesAscii isPlaceholderPart := by
  apply of_isWordPart
  intro byte part
  simp only [ByteScan.isPlaceholderPart, ByteScan.isWordPart, Bool.or_eq_true] at *
  exact .inl (.inl part)

theorem isWordStart : TakesAscii isWordStart := by
  apply of_isWordPart
  intro byte starts
  simp only [ByteScan.isWordStart, ByteScan.isWordPart, Bool.or_eq_true] at *
  rcases starts with letter | underscore
  · exact .inl (.inl (.inl (.inl letter)))
  · exact .inl (.inl (.inr underscore))

theorem code {symbol : Char} (ascii : symbol.toNat < 128) :
    TakesAscii (· = code symbol) := by
  intro character passed
  have same := (leadByte_eq_code character ascii).mp (by simpa using passed)
  rwa [same]

theorem or {left right : UInt8 → Bool} (leftAscii : TakesAscii left)
    (rightAscii : TakesAscii right) : TakesAscii fun byte => left byte || right byte := by
  intro character passed
  rcases Bool.or_eq_true_iff.mp passed with isLeft | isRight
  · exact leftAscii character isLeft
  · exact rightAscii character isRight

end TakesAscii

/-- The loop goes over bytes of ASCII characters only. -/
def Loop.TakesAscii : Loop → Prop
  | .run test => ByteScan.TakesAscii test
  | .groups => True
  | .quotes => True

section Rounds

variable {input : String} {start position : Nat}

/-- Behind a byte of ASCII another character begins, or the text ends. -/
theorem isValid_succ {test : UInt8 → Bool} (ascii : TakesAscii test)
    (valid : String.Pos.Raw.IsValid input ⟨position⟩)
    (passed : passes (utf8 input.toList) position test) :
    String.Pos.Raw.IsValid input ⟨position + 1⟩ := by
  obtain ⟨front, back, whole, rfl⟩ := isValid_iff.mp valid
  rw [whole, passes_place] at passed
  cases back with
  | nil => cases passed
  | cons first rest =>
      refine isValid_iff.mpr ⟨front ++ [first], rest, ?_, ?_⟩
      · rw [whole, List.append_cons]
      · exact place_behind front (ascii first passed)

theorem isValid_passOver {test : UInt8 → Bool} {part : Char → Bool}
    (tells : Tells test part) (valid : String.Pos.Raw.IsValid input ⟨position⟩) :
    String.Pos.Raw.IsValid input ⟨passOver (utf8 input.toList) test position⟩ := by
  obtain ⟨front, back, whole, rfl⟩ := isValid_iff.mp valid
  refine isValid_iff.mpr ⟨front ++ back.takeWhile part, back.dropWhile part, ?_, ?_⟩
  · rw [whole, List.append_assoc, List.takeWhile_append_dropWhile]
  · rw [whole, passOver_place _ _ tells]

/-- A quote is found between two characters, not before the search begins. -/
theorem valid_of_findQuote? {found : Nat}
    (valid : String.Pos.Raw.IsValid input ⟨position⟩)
    (isFound : findQuote? (utf8 input.toList) position = some (some found)) :
    position ≤ found ∧ String.Pos.Raw.IsValid input ⟨found⟩ ∧
      passes (utf8 input.toList) found (· = code '\'') := by
  rw [findQuote?] at isFound
  split at isFound
  · simp only [Option.some.injEq, Option.ite_none_right_eq_some] at isFound
    obtain ⟨within, rfl⟩ := isFound
    refine ⟨le_passOver _ _ _, isValid_passOver .noQuote valid, ?_⟩
    have stopped := passes_passOver (utf8 input.toList) (· ≠ code '\'') position
    rw [passes, List.getElem?_eq_getElem within] at *
    simpa using stopped
  · cases isFound

/-- Each loop within a step begins its rounds between two characters, from the
start of the step on. -/
theorem Rounds.valid {loop : Loop} (valid : String.Pos.Raw.IsValid input ⟨start⟩)
    (rounds : Rounds (utf8 input.toList) start loop position) :
    loop.TakesAscii ∧ start ≤ position ∧ String.Pos.Raw.IsValid input ⟨position⟩ := by
  -- A byte that was passed is a whole character, so the position behind it is
  -- valid; only the search for a quote goes over other characters.
  induction rounds with
  | word starts =>
      exact ⟨.isWordPart, Nat.le_succ start, isValid_succ .isWordStart valid starts⟩
  | whole starts => exact ⟨.isDigit, Nat.le_refl start, valid⟩
  | numbered starts =>
      have behind := isValid_succ (.code (by decide)) valid starts
      exact ⟨.isDigit, Nat.le_succ start, behind⟩
  | named starts letter =>
      have behind := isValid_succ (.code (by decide)) valid starts
      exact ⟨.isPlaceholderPart, by omega, isValid_succ .isLetter behind letter⟩
  | next stands passed ih =>
      obtain ⟨ascii, le, stays⟩ := ih
      exact ⟨ascii, Nat.le_succ_of_le le, isValid_succ ascii stays passed⟩
  | mantissa starts =>
      exact ⟨trivial, le_passOver _ _ _, isValid_passOver .isDigit valid⟩
  | group stands point digit ih =>
      obtain ⟨-, le, stays⟩ := ih
      have behind := isValid_succ (.code (by decide)) stays point
      exact ⟨.isDigit, Nat.le_succ_of_le le, behind⟩
  | @groupEnd position stands point digit ih =>
      obtain ⟨-, le, stays⟩ := ih
      have behind := isValid_succ (.code (by decide)) stays point
      have forward := le_passOver (utf8 input.toList) isDigit (position + 1)
      exact ⟨trivial, by omega, isValid_passOver .isDigit behind⟩
  | @exponent position digits stands mark sign digit ih =>
      obtain ⟨-, le, stays⟩ := ih
      have behind := isValid_succ (.or (.code (by decide)) (.code (by decide)))
        stays mark
      subst sign
      split
      · rename_i isSign
        have signed := isValid_succ (.or (.code (by decide)) (.code (by decide)))
          behind isSign
        exact ⟨.isDigit, by omega, signed⟩
      · exact ⟨.isDigit, by omega, behind⟩
  | content starts =>
      have behind := isValid_succ (.code (by decide)) valid starts
      exact ⟨trivial, Nat.le_succ start, behind⟩
  | @pair position found stands isFound doubled ih =>
      obtain ⟨-, le, stays⟩ := ih
      obtain ⟨forward, atQuote, quote⟩ := valid_of_findQuote? stays isFound
      have between := isValid_succ (.code (by decide)) atQuote quote
      have behind := isValid_succ (.code (by decide)) between doubled
      exact ⟨trivial, by omega, behind⟩

end Rounds

section Steps

variable {front back : List Char} {byte : UInt8}

/-- A step where a character begins takes a piece of the text. -/
theorem exists_step (found : (utf8 (front ++ back))[place front]? = some byte) :
    ∃ step piece after, back = piece ++ after ∧ piece ≠ [] ∧
      step? (front ++ back) (utf8 (front ++ back)) (place front) byte = some step ∧
      step.stop = place (front ++ piece) := by
  rw [getElem?_place] at found
  cases back with
  | nil => cases found
  | cons first rest =>
      cases found
      have taken := step?_place front first rest
      by_cases blank : Criteria.isBlank first
      · rw [if_pos blank] at taken
        exact ⟨_, [first], rest, rfl, List.cons_ne_nil first [], taken, rfl⟩
      · rw [if_neg blank] at taken
        exact ⟨_, (readLexeme first rest).1.spelling, (readLexeme first rest).2,
          (readLexeme_append first rest).symm, spelling_readLexeme_ne_nil first rest,
          taken, rfl⟩

/-- The scan visits a position behind some characters, with a mark behind some of
these. -/
theorem Visits.exists_front {text : List Char} {mark : Mark} {start : Nat}
    (visited : Visits text mark start) :
    ∃ before between back, text = before ++ (between ++ back) ∧
      mark = ⟨place before, before.length⟩ ∧ start = place (before ++ between) := by
  induction visited with
  | start => exact ⟨[], [], text, rfl, rfl, rfl⟩
  | blank visited found taken ih =>
      obtain ⟨before, between, back, rfl, rfl, rfl⟩ := ih
      rw [← List.append_assoc] at found taken
      obtain ⟨step, piece, after, rfl, -, takes, stops⟩ := exists_step found
      rw [taken, Option.some.injEq] at takes
      subst takes
      refine ⟨before, between ++ piece, after, ?_, rfl, ?_⟩
      · simp
      · rw [← List.append_assoc]
        exact stops
  | lexeme visited found taken moved ih =>
      obtain ⟨before, between, back, rfl, rfl, rfl⟩ := ih
      rw [moveTo?_place, Option.some.injEq] at moved
      rw [← List.append_assoc] at found taken
      obtain ⟨step, piece, after, rfl, -, takes, stops⟩ := exists_step found
      rw [taken, Option.some.injEq] at takes
      subst takes
      refine ⟨before ++ between, piece, after, ?_, moved.symm, stops⟩
      simp

/-- The quote that closes a quoted text is the last character of the step. -/
theorem closingQuote?_stop {rest : List Char} {close : Nat}
    (closes : closingQuote? (utf8 (front ++ '\'' :: rest)) none (place front + 1) =
      some (some close)) :
    ∃ content after, rest = doubleQuotes content ++ '\'' :: after ∧
      close = place (front ++ '\'' :: doubleQuotes content) ∧
      (lexemeStep front '\'' rest).stop = close + 1 := by
  rw [closingQuote?_opened] at closes
  cases read : readQuoted rest with
  | none =>
      rw [read] at closes
      cases closes
  | some result =>
      obtain ⟨content, after⟩ := result
      rw [read] at closes
      cases closes
      refine ⟨content, after, eq_of_readQuoted read, rfl, ?_⟩
      have quoteSize := @utf8Size_of_ascii '\'' (by decide)
      rw [lexemeStep, readLexeme_quote read]
      simp [Step.stop, Lexeme.spelling, Kind.spell, quote, quoteSize, Nat.add_assoc]

/-- The quote that closes the quoted text of a step is behind the opening quote,
between two characters, and the last character of the step. -/
theorem valid_of_closingQuote? {input : String} (text : input.toList = front ++ back)
    {step : Step} {close : Nat} (found : (utf8 input.toList)[place front]? = some byte)
    (taken : step? input.toList (utf8 input.toList) (place front) byte = some step)
    (opens : passes (utf8 input.toList) (place front) (· = code '\''))
    (closes : closingQuote? (utf8 input.toList) none (place front + 1) =
      some (some close)) :
    place front + 1 ≤ close ∧ String.Pos.Raw.IsValid input ⟨close⟩ ∧
      step.stop = close + 1 := by
  rw [text] at found taken opens closes
  rw [passes_symbol _ _ (by decide), decide_eq_true_eq] at opens
  cases back with
  | nil => cases opens
  | cons first rest =>
      cases opens
      rw [getElem?_place] at found
      cases found
      rw [step?_of_quote, Option.some.injEq] at taken
      obtain ⟨content, after, rfl, isClose, stops⟩ := closingQuote?_stop closes
      refine ⟨?_, ?_, ?_⟩
      · rw [isClose, @place_behind front '\'' (by decide)]
        simp
      · refine isValid_iff.mpr ⟨_, '\'' :: after, ?_, isClose⟩
        simp [text]
      · rw [← taken, stops]

end Steps

/-- Wherever the scan begins a step it takes one, and all positions of the step
are secure. -/
theorem Visits.secure {input : String} {mark : Mark} {start : Nat} {byte : UInt8}
    (visited : Visits input.toList mark start)
    (found : (utf8 input.toList)[start]? = some byte) :
    ∃ step, step? input.toList (utf8 input.toList) start byte = some step ∧
      Secure input mark start step := by
  obtain ⟨before, between, back, whole, rfl, rfl⟩ := visited.exists_front
  have text : input.toList = before ++ between ++ back := by
    rw [whole, List.append_assoc]
  have atFront := found
  rw [text] at atFront
  obtain ⟨step, piece, after, rfl, notEmpty, taken, stops⟩ := exists_step atFront
  rw [← text] at taken
  have startValid := isValid_iff.mpr ⟨before ++ between, piece ++ after, text, rfl⟩
  refine ⟨step, taken, ?_⟩
  constructor
  case start_valid => exact startValid
  case stop_valid =>
    exact isValid_iff.mpr ⟨before ++ between ++ piece, after, by simp [text], stops⟩
  case forward =>
    have positive := place_pos_iff.mpr notEmpty
    rw [stops, place_append _ piece]
    omega
  case character =>
    obtain ⟨first, rest, isFirst⟩ := List.exists_cons_of_ne_nil notEmpty
    refine ⟨first, rest ++ after, ?_⟩
    rw [text, sliceFrom?_place, isFirst]
    rfl
  case mark_valid => exact isValid_iff.mpr ⟨before, _, whole, rfl⟩
  case mark_le => simp
  case counted =>
    refine ⟨before ++ between, ⟨piece ++ after, text.symm⟩, rfl, ?_⟩
    rw [whole, moveTo?_place]
  case content =>
    intro close opens closes
    exact valid_of_closingQuote? text found taken opens closes
  case rounds =>
    intro loop position rounds
    exact (Rounds.valid startValid rounds).2

/-- The scan of the bytes of a text gives the tokens of its characters, and all
positions of each of its steps are secure. -/
theorem scan_secure (input : String) :
    (utf8 input.toList).toByteArray = input.toUTF8 ∧
      tokenizeBytes? input = some (tokenize input) ∧
      ∀ mark start byte, Visits input.toList mark start →
        (utf8 input.toList)[start]? = some byte →
        ∃ step, step? input.toList (utf8 input.toList) start byte = some step ∧
          Secure input mark start step := by
  refine ⟨toByteArray_utf8 input, tokenizeBytes?_eq input, ?_⟩
  intro mark start byte visited found
  exact visited.secure found

/-- A quoted text that is not closed, behind a character of two bytes and with
another one inside. -/
theorem scan_secure_of_unclosed_quote :
    Visits "é'ü''".toList ⟨0, 0⟩ 2 ∧
      (utf8 "é'ü''".toList)[2]? = some (code '\'') ∧
      ∃ step, step? "é'ü''".toList (utf8 "é'ü''".toList) 2 (code '\'') = some step ∧
        Secure "é'ü''" ⟨0, 0⟩ 2 step := by
  have begun := step?_place [] 'é' "'ü''".toList
  have visited : Visits "é'ü''".toList ⟨0, 0⟩ 2 :=
    Visits.lexeme .start rfl begun rfl
  have found : (utf8 "é'ü''".toList)[2]? = some (code '\'') := by decide
  exact ⟨visited, found, (scan_secure "é'ü''").2.2 _ _ _ visited found⟩

end ByteScan

end Criteria
