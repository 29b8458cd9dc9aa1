import Criteria.Proofs.Token.Rescan

/-!
# The scan takes longest lexemes

No lexeme of the grammar that begins a text is longer than the one that a step
of the scan takes, and where the step takes a stray character no lexeme begins
at all.  Since a lexeme is determined by its spelling, cutting an input by
longest match gives the tokens of the scan and nothing else.
-/

namespace Criteria

theorem isBoundary_nil : isBoundary [] := rfl

/-- A lexeme is determined by its spelling. -/
theorem Lexical.eq_of_spelling_eq {left right : Lexeme}
    (isLeft : Lexical left) (isRight : Lexical right)
    (same : left.spelling = right.spelling) : left = right := by
  obtain ⟨first, others, leftSpelling, -, leftReads⟩ :=
    readLexeme_of_lexical isLeft isBoundary_nil
  obtain ⟨_, _, rightSpelling, -, rightReads⟩ :=
    readLexeme_of_lexical isRight isBoundary_nil
  rw [← same, leftSpelling] at rightSpelling
  cases rightSpelling
  rw [leftReads] at rightReads
  exact (Prod.mk.inj rightReads).1

section Runs

variable {part : Char → Bool} {text : List Char}

/-- A run of characters of one class is no longer than all that can be taken. -/
theorem length_le_takeWhile (parts : text.all part) (after : List Char) :
    text.length ≤ ((text ++ after).takeWhile part).length := by
  rw [List.takeWhile_append_of_pos (by simpa using parts), List.length_append]
  exact Nat.le_add_right _ _

theorem length_le_readExponent (isExponent : IsExponent text)
    (after : List Char) :
    text.length ≤ (readExponent (text ++ after)).1.length := by
  cases isExponent with
  | @intro mark sign digits isMark isSign areDigits =>
      have digitsOnly := (Bool.and_eq_true_iff.mp areDigits).2
      have starts := startsWithDigit_append areDigits after
      have taken := length_le_takeWhile digitsOnly after
      have marked : (mark = 'e' || mark = 'E') = true := by simpa using isMark
      rw [List.cons_append, List.append_assoc, readExponent,
        splitSign_of_isSign isSign starts]
      simp only [marked, starts, Bool.and_self, if_true, List.length_cons,
        List.length_append]
      omega

/-- A numeral is no longer than the one that is read from its place. -/
theorem length_le_readNumeral {points : Nat} {hasExponent : Bool}
    (isNumeral : IsNumeral text points hasExponent) (after : List Char) :
    text.length ≤ (readNumeral (text ++ after)).1.spelling.length := by
  cases isNumeral with
  | @plain whole groups wholeDigits groupDigits =>
      have digits := (Bool.and_eq_true_iff.mp wholeDigits).2
      simp only [List.append_assoc]
      rw [readNumeral, readMantissa_digits digits, readMantissa_groups groupDigits]
      simp only [List.length_append]
      omega
  | @scientific whole exponent groups wholeDigits groupDigits isExponent =>
      have digits := (Bool.and_eq_true_iff.mp wholeDigits).2
      obtain ⟨noDigit, noPoint⟩ := isExponent.ends_mantissa after
      have mantissa := readMantissa_afterPoints groupDigits noDigit noPoint
      have exponentTaken := length_le_readExponent isExponent after
      simp only [List.append_assoc]
      rw [readNumeral, readMantissa_digits digits, mantissa]
      simp only [List.length_append]
      omega

end Runs

/-- Behind an opening quote a quoted text is read that is no shorter than any
that begins there, whatever follows its closing quote. -/
theorem readQuoted_of_closed (content after : List Char) :
    ∃ longer rest,
      readQuoted (doubleQuotes content ++ '\'' :: after) = some (longer, rest) ∧
        (doubleQuotes content).length ≤ (doubleQuotes longer).length := by
  fun_induction doubleQuotes content with
  | case1 =>
      obtain ⟨longer, rest, read⟩ : ∃ longer rest,
          readQuoted ('\'' :: after) = some (longer, rest) := by
        unfold readQuoted
        split
        · rename_i same
          cases same
        · split
          · exact ⟨_, _, rfl⟩
          · exact ⟨_, _, rfl⟩
        · exact ⟨_, _, rfl⟩
        · rename_i noQuote same
          cases same
          exact (noQuote rfl).elim
      exact ⟨longer, rest, read, Nat.zero_le _⟩
  | case2 others ih =>
      obtain ⟨longer, rest, read, bound⟩ := ih
      refine ⟨'\'' :: longer, rest, ?_, ?_⟩
      · simp only [List.cons_append, readQuoted, read]
      · simpa [doubleQuotes] using bound
  | case3 first others noQuote ih =>
      obtain ⟨longer, rest, read, bound⟩ := ih
      refine ⟨first :: longer, rest, ?_, ?_⟩
      · rw [List.cons_append, readQuoted, read]
        · intro _ same _
          exact noQuote same
        · exact noQuote
      · rw [doubleQuotes]
        · simpa using bound
        · exact noQuote

section Steps

variable {first : Char} {rest : List Char}

/-- A step of the scan takes a lexeme of the grammar, and no shorter one than
the given spelling. -/
def TakesAtLeast (spelling : List Char) (first : Char) (rest : List Char) : Prop :=
  Lexical (readLexeme first rest).1 ∧
    spelling.length ≤ (readLexeme first rest).1.spelling.length

theorem takesAtLeast_word {text after : List Char} (form : isWord text)
    (begins : text ++ after = first :: rest) : TakesAtLeast text first rest := by
  cases text with
  | nil => cases form
  | cons head others =>
      obtain ⟨rfl, rfl⟩ := List.cons.inj begins
      obtain ⟨start, parts⟩ := Bool.and_eq_true_iff.mp form
      have taken := length_le_takeWhile parts after
      unfold TakesAtLeast
      rw [readLexeme_start start]
      constructor
      · apply Lexical.word
        simp [isWord, start]
      · rw [Lexeme.spelling, Kind.spell_of_ne (Kind.ofWord_ne_string _)]
        exact Nat.succ_le_succ taken

theorem takesAtLeast_numeral {text after : List Char} {points : Nat}
    {hasExponent : Bool} (form : IsNumeral text points hasExponent)
    (begins : text ++ after = first :: rest) : TakesAtLeast text first rest := by
  have starts := startsWithDigit_of_isNumeral form
  have taken := length_le_readNumeral form after
  cases text with
  | nil => cases starts
  | cons head others =>
      have digit : head.isDigit := starts
      rw [begins] at taken
      obtain ⟨rfl, rfl⟩ := List.cons.inj begins
      unfold TakesAtLeast
      rw [readLexeme_digit digit]
      constructor
      · exact lexical_of_isNumeral (isNumeral_readNumeral digit _)
      · rwa [Lexeme.spelling, Kind.spell_of_ne (Numeral.kind_ne_string _)]

theorem takesAtLeast_string {content after : List Char}
    (begins : quote content ++ after = first :: rest) :
    TakesAtLeast (quote content) first rest := by
  obtain ⟨longer, others, read, bound⟩ := readQuoted_of_closed content after
  rw [quote, List.cons_append, List.append_assoc] at begins
  obtain ⟨rfl, rfl⟩ := List.cons.inj begins
  unfold TakesAtLeast
  rw [List.singleton_append, readLexeme_quote read]
  constructor
  · exact .string longer
  · simpa [Lexeme.spelling, Kind.spell, quote] using bound

/-- Where a lexeme begins, a step of the scan takes a lexeme at least as long. -/
theorem Lexical.takesAtLeast {lexeme : Lexeme} (lexical : Lexical lexeme)
    {after : List Char} (begins : lexeme.spelling ++ after = first :: rest) :
    TakesAtLeast lexeme.spelling first rest := by
  cases lexical with
  | word form =>
      rw [Lexeme.spelling, Kind.spell_of_ne (Kind.ofWord_ne_string _)] at *
      exact takesAtLeast_word form begins
  | integer form | float form | manyPoints form =>
      exact takesAtLeast_numeral form begins
  | string content => exact takesAtLeast_string begins
  | @numbered digits areDigits =>
      obtain ⟨rfl, rfl⟩ := List.cons.inj begins
      have taken := length_le_takeWhile areDigits after
      unfold TakesAtLeast
      rw [readLexeme_mark]
      constructor
      · exact .numbered (by simp)
      · exact Nat.succ_le_succ taken
  | @named second others letter areParts =>
      obtain ⟨rfl, rfl⟩ := List.cons.inj begins
      have isPart := isPlaceholderPart_of_isAlpha letter
      have allParts : (second :: others).all isPlaceholderPart := by
        simp [isPart, areParts]
      have taken := length_le_takeWhile allParts after
      have reads := @readLexeme_colon (others ++ after) second letter
      unfold TakesAtLeast
      rw [List.append_eq, List.cons_append, reads]
      constructor
      · simpa [isPart] using Lexical.named letter (by simp)
      · exact Nat.succ_le_succ taken
  | @symbol character isSymbol =>
      rw [Lexeme.spelling, Kind.spell_of_ne (Kind.ofSymbol_ne_string _)] at begins
      obtain ⟨rfl, rfl⟩ := List.cons.inj begins
      unfold TakesAtLeast
      rw [readLexeme_symbol isSymbol]
      constructor
      · exact .symbol isSymbol
      · exact Nat.le_refl _

/-- A step of the scan takes the longest lexeme, or a stray character where no
lexeme begins. -/
theorem isLongest_or_stray (first : Char) (rest : List Char) :
    (readLexeme first rest).1.IsLongest (first :: rest) ∨
      (readLexeme first rest).1 = ⟨.unclassified, [first]⟩ ∧
        ∀ lexeme : Lexeme, ¬ lexeme.Begins (first :: rest) := by
  have whole := readLexeme_append first rest
  have atLeast {other : Lexeme} (begins : other.Begins (first :: rest)) :
      TakesAtLeast other.spelling first rest := by
    obtain ⟨lexical, after, split⟩ := begins
    exact lexical.takesAtLeast split
  by_cases lexical : Lexical (readLexeme first rest).1
  · left
    refine ⟨⟨lexical, _, whole⟩, ?_⟩
    intro other begins
    exact (atLeast begins).2
  · right
    refine ⟨(lexical_or_stray first rest).resolve_left lexical, ?_⟩
    intro other begins
    exact lexical (atLeast begins).1

theorem Lexeme.IsLongest.unique {left right : Lexeme} {input : List Char}
    (isLeft : left.IsLongest input) (isRight : right.IsLongest input) :
    left = right := by
  obtain ⟨⟨leftLexical, leftPrefix⟩, leftBound⟩ := isLeft
  obtain ⟨⟨rightLexical, rightPrefix⟩, rightBound⟩ := isRight
  have shorter := rightBound left ⟨leftLexical, leftPrefix⟩
  have longer := leftBound right ⟨rightLexical, rightPrefix⟩
  have sameLength := Nat.le_antisymm shorter longer
  have within := List.prefix_of_prefix_length_le leftPrefix rightPrefix shorter
  exact leftLexical.eq_of_spelling_eq rightLexical (within.eq_of_length sameLength)

/-- The longest lexeme is the one that a step of the scan takes. -/
theorem Lexeme.IsLongest.readLexeme_eq {lexeme : Lexeme} {after : List Char}
    (longest : lexeme.IsLongest (first :: rest))
    (remainder : first :: rest = lexeme.spelling ++ after) :
    readLexeme first rest = (lexeme, after) := by
  rcases isLongest_or_stray first rest with taken | ⟨-, noLexeme⟩
  · have whole := readLexeme_append first rest
    have same := taken.unique longest
    rw [same, remainder] at whole
    exact Prod.ext same (List.append_cancel_left whole)
  · exact (noLexeme lexeme longest.1).elim

/-- Where no lexeme begins, a step of the scan takes one character. -/
theorem readLexeme_of_stray
    (noLexeme : ∀ lexeme : Lexeme, ¬ lexeme.Begins (first :: rest)) :
    readLexeme first rest = (⟨.unclassified, [first]⟩, rest) := by
  rcases isLongest_or_stray first rest with taken | ⟨stray, -⟩
  · exact (noLexeme _ taken.1).elim
  · have whole := readLexeme_append first rest
    rw [stray] at whole
    exact Prod.ext stray (List.cons.inj whole).2

end Steps

theorem LongestMatch.scan_eq {offset : Nat} {text : List Char}
    {tokens : List Token} (cut : LongestMatch offset text tokens) :
    scan offset text = tokens := by
  induction cut with
  | done => rw [scan]
  | blank isBlank _ ih => rw [scan_blank isBlank, ih]
  | lexeme notBlank longest remainder _ ih =>
      rw [scan, if_neg (by simp [notBlank]), longest.readLexeme_eq remainder]
      exact congrArg _ ih
  | stray notBlank noLexeme _ ih =>
      rw [scan, if_neg (by simp [notBlank]), readLexeme_of_stray noLexeme]
      exact congrArg _ ih

theorem longestMatch_scan (offset : Nat) (text : List Char) :
    LongestMatch offset text (scan offset text) := by
  fun_induction scan offset text with
  | case1 => exact .done
  | case2 offset first rest isBlank ih => exact .blank isBlank ih
  | case3 offset first rest notBlank step ih =>
      have noBlank : isBlank first = false := by simpa using notBlank
      rcases isLongest_or_stray first rest with longest | ⟨stray, noLexeme⟩
      · exact .lexeme noBlank longest (readLexeme_append first rest).symm ih
      · have reads := readLexeme_of_stray noLexeme
        have isStep : step = (⟨.unclassified, [first]⟩, rest) := reads
        rw [isStep] at ih ⊢
        exact .stray noBlank noLexeme ih

/-- Cutting an input by longest match gives its tokens, and nothing else. -/
theorem longestMatch_iff_tokenize (input : String) (tokens : List Token) :
    LongestMatch 0 input.toList tokens ↔ tokenize input = tokens := by
  constructor
  · intro cut
    exact cut.scan_eq
  · intro same
    rw [← same]
    exact longestMatch_scan 0 input.toList

end Criteria
