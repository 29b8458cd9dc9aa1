import Criteria.Proofs.Token.Lexical

/-!
# Lexemes read again

A lexeme of the grammar that is written in front of a boundary is taken back by
one step of the scan.  A boundary is the end of the text, a blank, a closing
parenthesis or a comma: no lexeme goes on across it.
-/

namespace Criteria

/-- Whether no word, numeral or quoted text in front goes on. -/
def isBoundary : List Char → Bool
  | [] => true
  | character :: _ => isBlank character || character = ')' || character = ','

section Characters

variable {character : Char}

theorem isUpper_iff :
    character.isUpper ↔ 65 ≤ character.toNat ∧ character.toNat ≤ 90 := by
  exact decide_eq_true_iff

theorem isLower_iff :
    character.isLower ↔ 97 ≤ character.toNat ∧ character.toNat ≤ 122 := by
  exact Bool.and_eq_true_iff.trans (and_congr decide_eq_true_iff decide_eq_true_iff)

theorem isDigit_iff :
    character.isDigit ↔ 48 ≤ character.toNat ∧ character.toNat ≤ 57 := by
  exact Bool.and_eq_true_iff.trans (and_congr decide_eq_true_iff decide_eq_true_iff)

theorem isAlpha_iff : character.isAlpha ↔
    (65 ≤ character.toNat ∧ character.toNat ≤ 90) ∨
      (97 ≤ character.toNat ∧ character.toNat ≤ 122) := by
  exact Bool.or_eq_true_iff.trans (or_congr isUpper_iff isLower_iff)

theorem toNat_of_isWordPart (part : isWordPart character) :
    0x20 < character.toNat ∧ character.toNat < 0x80 := by
  simp only [isWordPart, Char.isAlphanum, Bool.or_eq_true, isAlpha_iff, isDigit_iff,
    decide_eq_true_eq] at part
  rcases part with ((((letter | digit) | rfl) | rfl) | rfl)
  · omega
  · omega
  · decide
  · decide
  · decide

theorem toNat_of_isBlank (blank : isBlank character) :
    character.toNat ≤ 0x20 ∨ 0x85 ≤ character.toNat := by
  simp only [isBlank, blankRanges, List.any_cons, List.any_nil, Bool.or_eq_true,
    Bool.and_eq_true, decide_eq_true_eq, Bool.or_false] at blank
  omega

theorem isBlank_of_isWordPart (part : isWordPart character) :
    isBlank character = false := by
  apply Bool.eq_false_iff.mpr
  intro blank
  have inside := toNat_of_isWordPart part
  have outside := toNat_of_isBlank blank
  omega

theorem isWordPart_of_isDigit (digit : character.isDigit) :
    isWordPart character := by
  simp [isWordPart, Char.isAlphanum, digit]

theorem isPlaceholderPart_of_isAlpha (letter : character.isAlpha) :
    isPlaceholderPart character := by
  simp [isPlaceholderPart, Char.isAlphanum, letter]

theorem isWordPart_of_isPlaceholderPart (part : isPlaceholderPart character) :
    isWordPart character := by
  simp only [isPlaceholderPart, isWordPart, Bool.or_eq_true] at *
  exact .inl (.inl part)

theorem isWordStart_of_isDigit (digit : character.isDigit) :
    isWordStart character = false := by
  apply Bool.eq_false_iff.mpr
  intro start
  simp only [isWordStart, Bool.or_eq_true, isAlpha_iff, decide_eq_true_eq] at start
  rw [isDigit_iff] at digit
  rcases start with letter | rfl
  · omega
  · exact absurd digit (by decide)

end Characters

section Symbols

variable {symbol : Char}

theorem isBlank_of_mem_symbols (isSymbol : symbol ∈ symbols) :
    isBlank symbol = false := by
  have noBlank : symbols.all fun symbol => !isBlank symbol := by decide
  simpa using List.all_eq_true.mp noBlank symbol isSymbol

/-- No symbol begins a word, a numeral, a quoted text or a placeholder. -/
theorem starts_of_mem_symbols (isSymbol : symbol ∈ symbols) :
    isWordStart symbol = false ∧ symbol.isDigit = false ∧ symbol ≠ '\'' ∧
      symbol ≠ '?' ∧ symbol ≠ ':' := by
  have starts : symbols.all fun symbol => !isWordStart symbol &&
      !symbol.isDigit && symbol ≠ '\'' && symbol ≠ '?' && symbol ≠ ':' := by
    decide
  simpa [and_assoc] using List.all_eq_true.mp starts symbol isSymbol

end Symbols

section Boundary

variable {rest : List Char}

theorem isBoundary_append {text : List Char} (before : isBoundary text)
    (behind : isBoundary rest) : isBoundary (text ++ rest) := by
  cases text with
  | nil => exact behind
  | cons first others => exact before

/-- A character that a lexeme could go on with is no boundary. -/
theorem head?_ne_of_isBoundary (boundary : isBoundary rest) {character : Char}
    (inside : isBoundary [character] = false) : rest.head? ≠ some character := by
  intro same
  cases rest with
  | nil => cases same
  | cons first others =>
      cases same
      exact absurd boundary (by simpa [isBoundary] using inside)

theorem isWordPart_of_isBoundary {first : Char} {others : List Char}
    (boundary : isBoundary (first :: others)) : isWordPart first = false := by
  have cases_of : (isBlank first ∨ first = ')') ∨ first = ',' := by
    simpa [isBoundary] using boundary
  rcases cases_of with (blank | rfl) | rfl
  · apply Bool.eq_false_iff.mpr
    intro part
    rw [isBlank_of_isWordPart part] at blank
    cases blank
  · decide
  · decide

/-- No run of characters that may belong to a word goes on behind a boundary. -/
theorem ends_of_isBoundary {part : Char → Bool} (boundary : isBoundary rest)
    (inWord : ∀ character, part character → isWordPart character) :
    ∀ character, rest.head? = some character → part character = false := by
  intro character isFirst
  cases rest with
  | nil => cases isFirst
  | cons first others =>
      cases isFirst
      apply Bool.eq_false_iff.mpr
      intro isPart
      have inside := inWord character isPart
      rw [isWordPart_of_isBoundary boundary] at inside
      cases inside

theorem startsWithDigit_of_isBoundary (boundary : isBoundary rest) :
    startsWithDigit rest = false := by
  cases rest with
  | nil => rfl
  | cons first others =>
      apply Bool.eq_false_iff.mpr
      intro digit
      have part := isWordPart_of_isDigit digit
      rw [isWordPart_of_isBoundary boundary] at part
      cases part

end Boundary

section Spans

variable {part : Char → Bool} {text rest : List Char}

/-- A run of characters of one class ends where the next one is not of it. -/
theorem takeWhile_append_of_not (parts : text.all part)
    (ends : ∀ character, rest.head? = some character → part character = false) :
    (text ++ rest).takeWhile part = text := by
  rw [List.takeWhile_append_of_pos (by simpa using parts)]
  cases rest with
  | nil => simp
  | cons first others => simp [ends first rfl]

theorem dropWhile_append_of_not (parts : text.all part)
    (ends : ∀ character, rest.head? = some character → part character = false) :
    (text ++ rest).dropWhile part = rest := by
  rw [List.dropWhile_append_of_pos (by simpa using parts)]
  cases rest with
  | nil => simp
  | cons first others => simp [ends first rfl]

end Spans

section Numerals

variable {rest : List Char}

theorem readMantissa_digits {digits : List Char}
    (areDigits : digits.all Char.isDigit) (rest : List Char) :
    readMantissa (digits ++ rest) =
      { readMantissa rest with
        spelling := digits ++ (readMantissa rest).spelling } := by
  induction digits with
  | nil => rfl
  | cons first others ih =>
      obtain ⟨isDigit, areOthers⟩ : first.isDigit ∧ others.all Char.isDigit := by
        simpa using areDigits
      rw [List.cons_append, readMantissa, if_pos isDigit, ih areOthers]
      rfl

/-- A mantissa ends where neither a digit nor a point with a digit follows. -/
theorem readMantissa_of_end (noDigit : startsWithDigit rest = false)
    (noPoint : rest.head? ≠ some '.') : readMantissa rest = ⟨[], 0, rest⟩ := by
  cases rest with
  | nil => rfl
  | cons first others =>
      have notDigit : first.isDigit = false := noDigit
      have notPoint : first ≠ '.' := by simpa using noPoint
      simp [readMantissa, notDigit, notPoint]

/-- Groups behind points are taken whatever follows them. -/
theorem readMantissa_groups {groups : List (List Char)}
    (areGroups : ∀ group ∈ groups, isDigits group) (rest : List Char) :
    readMantissa (afterPoints groups ++ rest) =
      ⟨afterPoints groups ++ (readMantissa rest).spelling,
        (readMantissa rest).points + groups.length, (readMantissa rest).rest⟩ := by
  induction groups with
  | nil => rfl
  | cons group groups ih =>
      obtain ⟨isGroup, areOthers⟩ := List.forall_mem_cons.mp areGroups
      have digits : group.all Char.isDigit := by
        simpa [isDigits] using (Bool.and_eq_true_iff.mp isGroup).2
      have starts := startsWithDigit_append isGroup (afterPoints groups ++ rest)
      have unfolded : afterPoints (group :: groups) ++ rest =
          '.' :: (group ++ (afterPoints groups ++ rest)) := by
        simp [afterPoints]
      rw [unfolded, readMantissa, if_neg (by decide), if_pos (by simp [starts]),
        readMantissa_digits digits, ih areOthers]
      simp [afterPoints, Nat.add_assoc]

theorem readMantissa_afterPoints {groups : List (List Char)}
    (areGroups : ∀ group ∈ groups, isDigits group)
    (noDigit : startsWithDigit rest = false) (noPoint : rest.head? ≠ some '.') :
    readMantissa (afterPoints groups ++ rest) =
      ⟨afterPoints groups, groups.length, rest⟩ := by
  rw [readMantissa_groups areGroups, readMantissa_of_end noDigit noPoint]
  simp

theorem readExponent_of_end (noMark : rest.head? ≠ some 'e')
    (noBigMark : rest.head? ≠ some 'E') : readExponent rest = ([], rest) := by
  cases rest with
  | nil => rfl
  | cons first others =>
      have notMark : first ≠ 'e' := by simpa using noMark
      have notBigMark : first ≠ 'E' := by simpa using noBigMark
      simp [readExponent, notMark, notBigMark]

theorem splitSign_of_isSign {sign digits : List Char}
    (isSign : sign = [] ∨ sign = ['+'] ∨ sign = ['-'])
    (starts : startsWithDigit digits) :
    splitSign (sign ++ digits) = (sign, digits) := by
  rcases isSign with rfl | rfl | rfl
  · cases digits with
    | nil => cases starts
    | cons first others =>
        have isDigit : first.isDigit := starts
        have noPlus : first ≠ '+' := by
          intro same
          subst same
          cases isDigit
        have noMinus : first ≠ '-' := by
          intro same
          subst same
          cases isDigit
        simp [splitSign, noPlus, noMinus]
  · rfl
  · rfl

theorem readExponent_of_isExponent {exponent : List Char}
    (isExponent : IsExponent exponent) (noDigit : startsWithDigit rest = false) :
    readExponent (exponent ++ rest) = (exponent, rest) := by
  cases isExponent with
  | @intro mark sign digits isMark isSign areDigits =>
      have digitsOnly : digits.all Char.isDigit :=
        (Bool.and_eq_true_iff.mp areDigits).2
      have ends : ∀ character, rest.head? = some character →
          character.isDigit = false := by
        intro character isFirst
        cases rest with
        | nil => cases isFirst
        | cons first others =>
            cases isFirst
            exact noDigit
      have starts := startsWithDigit_append areDigits rest
      have marked : (mark = 'e' || mark = 'E') = true := by simpa using isMark
      rw [List.cons_append, List.append_assoc, readExponent,
        splitSign_of_isSign isSign starts]
      simp only [marked, starts, Bool.and_self, if_true,
        takeWhile_append_of_not digitsOnly ends,
        dropWhile_append_of_not digitsOnly ends]

theorem IsExponent.ends_mantissa {exponent : List Char}
    (isExponent : IsExponent exponent) (rest : List Char) :
    startsWithDigit (exponent ++ rest) = false ∧
      (exponent ++ rest).head? ≠ some '.' := by
  cases isExponent with
  | intro isMark =>
      rcases isMark with rfl | rfl
      · exact ⟨rfl, by simp⟩
      · exact ⟨rfl, by simp⟩

/-- A numeral is read with its points and exponent where no character follows
with which a numeral goes on. -/
theorem readNumeral_of_ends {text : List Char} {points : Nat}
    {hasExponent : Bool} (isNumeral : IsNumeral text points hasExponent)
    (noDigit : startsWithDigit rest = false) (noPoint : rest.head? ≠ some '.')
    (noMark : rest.head? ≠ some 'e') (noBigMark : rest.head? ≠ some 'E') :
    readNumeral (text ++ rest) = (⟨text, points, hasExponent⟩, rest) := by
  cases isNumeral with
  | plain wholeDigits groupDigits =>
      have mantissa := readMantissa_afterPoints groupDigits noDigit noPoint
      have noExponent := readExponent_of_end noMark noBigMark
      have digits := (Bool.and_eq_true_iff.mp wholeDigits).2
      rw [List.append_assoc, readNumeral, readMantissa_digits digits, mantissa]
      simp [noExponent]
  | @scientific whole exponent groups wholeDigits groupDigits isExponent =>
      have digits := (Bool.and_eq_true_iff.mp wholeDigits).2
      have reads := readExponent_of_isExponent isExponent noDigit
      have marked : exponent.isEmpty = false := by
        cases isExponent
        rfl
      obtain ⟨exponentNoDigit, exponentNoPoint⟩ := isExponent.ends_mantissa rest
      have mantissa := readMantissa_afterPoints groupDigits exponentNoDigit
        exponentNoPoint
      rw [List.append_assoc, List.append_assoc, readNumeral,
        readMantissa_digits digits, mantissa]
      simp [reads, marked]

theorem readNumeral_of_isNumeral {text : List Char} {points : Nat}
    {hasExponent : Bool} (isNumeral : IsNumeral text points hasExponent)
    (boundary : isBoundary rest) :
    readNumeral (text ++ rest) = (⟨text, points, hasExponent⟩, rest) :=
  readNumeral_of_ends isNumeral (startsWithDigit_of_isBoundary boundary)
    (head?_ne_of_isBoundary boundary (by decide))
    (head?_ne_of_isBoundary boundary (by decide))
    (head?_ne_of_isBoundary boundary (by decide))

end Numerals

/-- A quoted text is read back if no further quote follows it. -/
theorem readQuoted_doubleQuotes {rest : List Char}
    (noQuote : rest.head? ≠ some '\'') (content : List Char) :
    readQuoted (doubleQuotes content ++ '\'' :: rest) = some (content, rest) := by
  fun_induction doubleQuotes content with
  | case1 =>
      rw [List.nil_append, readQuoted]
      intro others doubled
      rw [doubled] at noQuote
      exact noQuote rfl
  | case2 others ih =>
      simp only [List.cons_append, readQuoted, ih]
  | case3 first others noQuoteFirst ih =>
      rw [List.cons_append, readQuoted, ih]
      · intro _ same _
        exact noQuoteFirst same
      · exact noQuoteFirst

section Steps

variable {first : Char} {rest : List Char}

theorem readLexeme_start (start : isWordStart first) :
    readLexeme first rest =
      (⟨Kind.ofWord (String.ofList (first :: rest.takeWhile isWordPart)),
        first :: rest.takeWhile isWordPart⟩, rest.dropWhile isWordPart) :=
  if_pos start

theorem readLexeme_digit (digit : first.isDigit) :
    readLexeme first rest =
      (⟨(readNumeral (first :: rest)).1.kind,
        (readNumeral (first :: rest)).1.spelling⟩,
        (readNumeral (first :: rest)).2) := by
  have noStart := isWordStart_of_isDigit digit
  rw [readLexeme, if_neg (by simp [noStart]), if_pos digit]

theorem readLexeme_quote {content after : List Char}
    (read : readQuoted rest = some (content, after)) :
    readLexeme '\'' rest = (⟨.string, content⟩, after) := by
  rw [readLexeme, if_neg (by decide), if_neg (by decide), if_pos rfl, read]

theorem readLexeme_loneQuote (read : readQuoted rest = none) :
    readLexeme '\'' rest = (⟨.unclassified, ['\'']⟩, rest) := by
  rw [readLexeme, if_neg (by decide), if_neg (by decide), if_pos rfl, read]

theorem readLexeme_mark :
    readLexeme '?' rest =
      (⟨.unclassified, '?' :: rest.takeWhile Char.isDigit⟩,
        rest.dropWhile Char.isDigit) :=
  rfl

theorem readLexeme_colon {letter : Char} (isLetter : letter.isAlpha) :
    readLexeme ':' (letter :: rest) =
      (⟨.unclassified, ':' :: (letter :: rest).takeWhile isPlaceholderPart⟩,
        (letter :: rest).dropWhile isPlaceholderPart) := by
  rw [readLexeme, if_neg (by decide), if_neg (by decide), if_neg (by decide),
    if_neg (by decide), if_pos (by simp [startsWithLetter, isLetter])]

theorem readLexeme_word {others : List Char}
    (form : isWord (first :: others)) (boundary : isBoundary rest) :
    readLexeme first (others ++ rest) =
      (⟨Kind.ofWord (String.ofList (first :: others)), first :: others⟩, rest) := by
  obtain ⟨start, parts⟩ := Bool.and_eq_true_iff.mp form
  have ends := ends_of_isBoundary boundary fun _ => id
  rw [readLexeme_start start, takeWhile_append_of_not parts ends,
    dropWhile_append_of_not parts ends]

theorem readLexeme_numeral {text : List Char} {points : Nat} {hasExponent : Bool}
    {kind : Kind} (form : IsNumeral text points hasExponent)
    (sameKind : Numeral.kind ⟨text, points, hasExponent⟩ = kind)
    (boundary : isBoundary rest) :
    ∃ first others, (⟨kind, text⟩ : Lexeme).spelling = first :: others ∧
      isBlank first = false ∧
      readLexeme first (others ++ rest) = (⟨kind, text⟩, rest) := by
  have starts := startsWithDigit_of_isNumeral form
  cases text with
  | nil => cases starts
  | cons first others =>
      have digit : first.isDigit := starts
      have reads := readNumeral_of_isNumeral form boundary
      rw [List.cons_append] at reads
      have noString : kind ≠ .string := by
        rw [← sameKind]
        exact Numeral.kind_ne_string _
      refine ⟨first, others, Kind.spell_of_ne noString _,
        isBlank_of_isWordPart (isWordPart_of_isDigit digit), ?_⟩
      rw [readLexeme_digit digit, reads]
      have sameLexeme : (⟨Numeral.kind ⟨first :: others, points, hasExponent⟩,
          first :: others⟩ : Lexeme) = ⟨kind, first :: others⟩ := by
        rw [sameKind]
      exact congrArg (·, rest) sameLexeme

theorem readLexeme_string {content : List Char}
    (noQuote : rest.head? ≠ some '\'') :
    readLexeme '\'' (doubleQuotes content ++ '\'' :: rest) =
      (⟨.string, content⟩, rest) :=
  readLexeme_quote (readQuoted_doubleQuotes noQuote content)

/-- A symbol is a lexeme whatever follows it. -/
theorem readLexeme_symbol {symbol : Char} (isSymbol : symbol ∈ symbols)
    (rest : List Char) :
    readLexeme symbol rest = (⟨.ofSymbol symbol, [symbol]⟩, rest) := by
  obtain ⟨noStart, noDigit, noQuote, noMark, noColon⟩ :=
    starts_of_mem_symbols isSymbol
  simp [readLexeme, noStart, noDigit, noQuote, noMark, noColon]

/-- A lexeme in front of a boundary is taken back as it is. -/
theorem readLexeme_of_lexical {lexeme : Lexeme} (lexical : Lexical lexeme)
    (boundary : isBoundary rest) :
    ∃ first others, lexeme.spelling = first :: others ∧ isBlank first = false ∧
      readLexeme first (others ++ rest) = (lexeme, rest) := by
  cases lexical with
  | @word text form =>
      cases text with
      | nil => cases form
      | cons first others =>
          have start := (Bool.and_eq_true_iff.mp form).1
          exact ⟨first, others, Kind.spell_of_ne (Kind.ofWord_ne_string _) _,
            isBlank_of_isWordPart (isWordPart_of_isWordStart start),
            readLexeme_word form boundary⟩
  | integer form => exact readLexeme_numeral form rfl boundary
  | @float text points hasExponent form few marked =>
      apply readLexeme_numeral form _ boundary
      have isMarked : (points = 0 && !hasExponent) = false := by
        rcases marked with rfl | rfl
        · rfl
        · simp
      simp [Numeral.kind, isMarked, few]
  | @manyPoints text points hasExponent form many =>
      apply readLexeme_numeral form _ boundary
      have points_ne_zero : points ≠ 0 := by omega
      have tooMany : ¬ points ≤ 1 := by omega
      simp [Numeral.kind, points_ne_zero, tooMany]
  | string content =>
      have noQuote : rest.head? ≠ some '\'' :=
        head?_ne_of_isBoundary boundary (by decide)
      refine ⟨'\'', doubleQuotes content ++ ['\''], rfl, by decide, ?_⟩
      rw [List.append_assoc]
      exact readLexeme_string noQuote
  | @numbered digits areDigits =>
      have ends := ends_of_isBoundary boundary fun _ => isWordPart_of_isDigit
      refine ⟨'?', digits, rfl, by decide, ?_⟩
      rw [readLexeme_mark, takeWhile_append_of_not areDigits ends,
        dropWhile_append_of_not areDigits ends]
  | @named second others letter areParts =>
      have ends := ends_of_isBoundary boundary
        fun _ => isWordPart_of_isPlaceholderPart
      have allParts : (second :: others).all isPlaceholderPart := by
        simp [isPlaceholderPart_of_isAlpha letter, areParts]
      refine ⟨':', second :: others, rfl, by decide, ?_⟩
      rw [List.cons_append, readLexeme_colon letter, ← List.cons_append,
        takeWhile_append_of_not allParts ends,
        dropWhile_append_of_not allParts ends]
  | @symbol character isSymbol =>
      exact ⟨character, [], Kind.spell_of_ne (Kind.ofSymbol_ne_string _) _,
        isBlank_of_mem_symbols isSymbol, readLexeme_symbol isSymbol rest⟩

end Steps

theorem scan_blank {first : Char} (blank : isBlank first) (offset : Nat)
    (rest : List Char) : scan offset (first :: rest) = scan (offset + 1) rest := by
  rw [scan, if_pos blank]

/-- The scan of a lexeme in front of a boundary gives the lexeme first. -/
theorem scan_lexeme {lexeme : Lexeme} (lexical : Lexical lexeme)
    {rest : List Char} (boundary : isBoundary rest) (offset : Nat) :
    scan offset (lexeme.spelling ++ rest) =
      lexeme.toToken offset :: scan (offset + lexeme.spelling.length) rest := by
  obtain ⟨first, others, spelling, noBlank, reads⟩ :=
    readLexeme_of_lexical lexical boundary
  rw [spelling, List.cons_append, scan, if_neg (by simp [noBlank]), reads,
    ← spelling]

theorem scan_symbol {symbol : Char} (isSymbol : symbol ∈ symbols) (offset : Nat)
    (rest : List Char) :
    scan offset (symbol :: rest) =
      Lexeme.toToken ⟨.ofSymbol symbol, [symbol]⟩ offset ::
        scan (offset + 1) rest := by
  have noBlank := isBlank_of_mem_symbols isSymbol
  have spelling : Lexeme.spelling ⟨.ofSymbol symbol, [symbol]⟩ = [symbol] :=
    Kind.spell_of_ne (Kind.ofSymbol_ne_string _) _
  rw [scan, if_neg (by simp [noBlank]), readLexeme_symbol isSymbol]
  simp only [spelling, List.length_singleton]

end Criteria
