import Criteria.Token.LongestMatch

/-!
# Tokens as lexemes of the grammar

Every classified token of an input is a lexeme of the lexical grammar.  The
statement follows the scan: the parts of a numeral, then one step, then the
whole input.
-/

namespace Criteria

theorem takeWhile_isDigit_ne_nil {text : List Char}
    (digit : startsWithDigit text) : text.takeWhile Char.isDigit ≠ [] := by
  cases text with
  | nil => simp [startsWithDigit] at digit
  | cons first rest =>
      have isDigit : first.isDigit := digit
      simp [isDigit]

theorem isDigits_takeWhile {text : List Char} (digit : startsWithDigit text) :
    isDigits (text.takeWhile Char.isDigit) := by
  simp [isDigits, takeWhile_isDigit_ne_nil digit]

/-- The part of a numeral before the exponent is a run of digits, which may be
empty, and groups behind points. -/
theorem readMantissa_eq (input : List Char) :
    ∃ whole groups, (readMantissa input).spelling = whole ++ afterPoints groups ∧
      (readMantissa input).points = groups.length ∧ whole.all Char.isDigit ∧
      (∀ group ∈ groups, isDigits group) ∧
      (startsWithDigit input → whole ≠ []) := by
  induction input with
  | nil => exact ⟨[], [], rfl, rfl, rfl, by simp, by simp [startsWithDigit]⟩
  | cons first rest ih =>
      obtain ⟨whole, groups, spelling, points, digits, areGroups, nonempty⟩ := ih
      unfold readMantissa
      split
      · rename_i isDigit
        refine ⟨first :: whole, groups, ?_, points, ?_, areGroups, by simp⟩
        · simp [spelling]
        · simp [isDigit, digits]
      · rename_i noDigit
        split
        · rename_i point
          obtain ⟨isPoint, digit⟩ : first = '.' ∧ startsWithDigit rest := by
            simpa using point
          refine ⟨[], whole :: groups, ?_, ?_, rfl, ?_, ?_⟩
          · simp [spelling, afterPoints, isPoint]
          · simp [points]
          · intro group member
            rcases List.mem_cons.mp member with rfl | later
            · simp [isDigits, nonempty digit, digits]
            · exact areGroups group later
          · intro starts
            exact (noDigit starts).elim
        · refine ⟨[], [], rfl, rfl, rfl, by simp, ?_⟩
          intro starts
          exact (noDigit starts).elim

theorem isSign_splitSign (input : List Char) :
    (splitSign input).1 = [] ∨ (splitSign input).1 = ['+'] ∨
      (splitSign input).1 = ['-'] := by
  fun_cases splitSign input with
  | case1 => exact .inl rfl
  | case2 first rest isSign =>
      have either : first = '+' ∨ first = '-' := by simpa using isSign
      rcases either with rfl | rfl
      · exact .inr (.inl rfl)
      · exact .inr (.inr rfl)
  | case3 => exact .inl rfl

theorem isExponent_readExponent (input : List Char) :
    (readExponent input).1 = [] ∨ IsExponent (readExponent input).1 := by
  fun_cases readExponent input with
  | case1 => exact .inl rfl
  | case2 mark rest sign digits split taken =>
      right
      obtain ⟨isMark, digit⟩ :
          (mark = 'e' ∨ mark = 'E') ∧ startsWithDigit digits := by
        simpa using taken
      have isSign := isSign_splitSign rest
      rw [split] at isSign
      exact .intro isMark isSign (isDigits_takeWhile digit)
  | case3 => exact .inl rfl

/-- What is read from a digit on is a numeral with the points and the exponent
that were counted. -/
theorem isNumeral_readNumeral {first : Char} (digit : first.isDigit)
    (rest : List Char) :
    IsNumeral (readNumeral (first :: rest)).1.spelling
      (readNumeral (first :: rest)).1.points
      (readNumeral (first :: rest)).1.hasExponent := by
  obtain ⟨whole, groups, spelling, points, digits, areGroups, nonempty⟩ :=
    readMantissa_eq (first :: rest)
  have wholeDigits : isDigits whole := by
    simp [isDigits, nonempty digit, digits]
  simp only [readNumeral, spelling, points]
  rcases isExponent_readExponent (readMantissa (first :: rest)).rest with
    none | isExponent
  · simpa [none] using IsNumeral.plain wholeDigits areGroups
  · have marked : (readExponent (readMantissa (first :: rest)).rest).1.isEmpty =
        false := by
      generalize (readExponent _).1 = exponent at isExponent
      cases isExponent
      rfl
    rw [marked]
    exact .scientific wholeDigits areGroups isExponent

theorem lexical_of_isNumeral {numeral : Numeral}
    (isNumeral : IsNumeral numeral.spelling numeral.points numeral.hasExponent) :
    Lexical ⟨numeral.kind, numeral.spelling⟩ := by
  unfold Numeral.kind
  split
  · rename_i plain
    obtain ⟨noPoint, noExponent⟩ :
        numeral.points = 0 ∧ numeral.hasExponent = false := by
      simpa using plain
    rw [noPoint, noExponent] at isNumeral
    exact .integer isNumeral
  · rename_i marked
    split
    · rename_i few
      apply Lexical.float isNumeral few
      by_cases noPoint : numeral.points = 0
      · right
        simpa [noPoint] using marked
      · left
        omega
    · rename_i many
      exact .manyPoints isNumeral (by omega)

theorem ofSymbol_of_not_mem {character : Char} (other : character ∉ symbols) :
    Kind.ofSymbol character = .unclassified := by
  unfold Kind.ofSymbol
  split
  all_goals first
    | rfl
    | exact (other (by decide)).elim

/-- A step of the scan gives a lexeme of the grammar, or a stray character. -/
theorem lexical_or_stray (first : Char) (rest : List Char) :
    Lexical (readLexeme first rest).1 ∨
      (readLexeme first rest).1 = ⟨.unclassified, [first]⟩ := by
  unfold readLexeme
  split
  · rename_i start
    left
    apply Lexical.word
    simp [isWord, start]
  split
  · rename_i digit
    exact .inl (lexical_of_isNumeral (isNumeral_readNumeral digit rest))
  split
  · cases readQuoted rest with
    | none => exact .inr rfl
    | some result => exact .inl (.string result.1)
  split
  · rename_i isMark
    subst isMark
    exact .inl (.numbered (by simp))
  split
  · rename_i isMark
    obtain ⟨rfl, letter⟩ : first = ':' ∧ startsWithLetter rest := by
      simpa using isMark
    cases rest with
    | nil => simp [startsWithLetter] at letter
    | cons second others =>
        have isAlpha : second.isAlpha := letter
        have isPart : isPlaceholderPart second := by
          simp [isPlaceholderPart, Char.isAlphanum, isAlpha]
        left
        simpa [isPart] using Lexical.named isAlpha (by simp)
  · by_cases isSymbol : first ∈ symbols
    · exact .inl (.symbol isSymbol)
    · right
      simp [ofSymbol_of_not_mem isSymbol]

/-- A token is unclassified or a lexeme of the grammar. -/
def Token.IsLexical (token : Token) : Prop :=
  token.kind = .unclassified ∨ Lexical ⟨token.kind, token.text.toList⟩

theorem isLexical_symbol {symbol : Char} (isSymbol : symbol ∈ symbols)
    (offset : Nat) :
    Token.IsLexical ⟨.ofSymbol symbol, String.ofList [symbol], offset⟩ := by
  right
  rw [String.toList_ofList]
  exact .symbol isSymbol

/-- All tokens are unclassified or lexemes of the grammar. -/
def AreLexical (tokens : List Token) : Prop :=
  ∀ token ∈ tokens, token.IsLexical

theorem areLexical_nil : AreLexical [] := by
  simp [AreLexical]

theorem AreLexical.cons {first : Token} {others : List Token}
    (lexical : first.IsLexical) (areLexical : AreLexical others) :
    AreLexical (first :: others) :=
  List.forall_mem_cons.mpr ⟨lexical, areLexical⟩

theorem areLexical_one {token : Token} (lexical : token.IsLexical) :
    AreLexical [token] :=
  areLexical_nil.cons lexical

theorem AreLexical.append {front back : List Token}
    (frontLexical : AreLexical front) (backLexical : AreLexical back) :
    AreLexical (front ++ back) :=
  List.forall_mem_append.mpr ⟨frontLexical, backLexical⟩

theorem AreLexical.head {first : Token} {others : List Token}
    (lexical : AreLexical (first :: others)) : first.IsLexical :=
  (List.forall_mem_cons.mp lexical).1

theorem AreLexical.tail {first : Token} {others : List Token}
    (lexical : AreLexical (first :: others)) : AreLexical others :=
  (List.forall_mem_cons.mp lexical).2

theorem AreLexical.left {front back : List Token}
    (lexical : AreLexical (front ++ back)) : AreLexical front :=
  (List.forall_mem_append.mp lexical).1

theorem AreLexical.right {front back : List Token}
    (lexical : AreLexical (front ++ back)) : AreLexical back :=
  (List.forall_mem_append.mp lexical).2

theorem areLexical_scan (offset : Nat) (text : List Char) :
    AreLexical (scan offset text) := by
  fun_induction scan offset text with
  | case1 => exact areLexical_nil
  | case2 offset first rest isBlank ih => exact ih
  | case3 offset first rest notBlank step ih =>
      apply AreLexical.cons _ ih
      rcases lexical_or_stray first rest with isLexical | stray
      · right
        simpa [Lexeme.toToken] using isLexical
      · left
        simp [Lexeme.toToken, step, stray]

theorem areLexical_tokenize (input : String) : AreLexical (tokenize input) :=
  areLexical_scan 0 input.toList

theorem startsWithDigit_append {digits : List Char} (areDigits : isDigits digits)
    (rest : List Char) : startsWithDigit (digits ++ rest) := by
  cases digits with
  | nil => simp [isDigits] at areDigits
  | cons first others =>
      have both : first.isDigit ∧ ∀ other ∈ others, other.isDigit := by
        simpa [isDigits] using areDigits
      exact both.1

theorem startsWithDigit_of_isNumeral {text : List Char} {points : Nat}
    {hasExponent : Bool} (isNumeral : IsNumeral text points hasExponent) :
    startsWithDigit text := by
  cases isNumeral with
  | plain wholeDigits => exact startsWithDigit_append wholeDigits _
  | scientific wholeDigits =>
      rw [List.append_assoc]
      exact startsWithDigit_append wholeDigits _

theorem isWordLike_ofSymbol (character : Char) :
    (Kind.ofSymbol character).isWordLike = false := by
  unfold Kind.ofSymbol
  split <;> rfl

/-- The lexemes that may be subjects are words, of the kind that they spell. -/
theorem Lexical.word_of_isWordLike {lexeme : Lexeme} (lexical : Lexical lexeme)
    (isWordLike : lexeme.kind.isWordLike) :
    isWord lexeme.text ∧ Kind.ofWord (String.ofList lexeme.text) = lexeme.kind := by
  cases lexical with
  | word form => exact ⟨form, rfl⟩
  | symbol _ =>
      rw [isWordLike_ofSymbol] at isWordLike
      cases isWordLike
  | integer | float | manyPoints | string | numbered | named => cases isWordLike

/-- The lexemes of numeric kinds are numerals with at most one point; a float is
one with a point or an exponent. -/
theorem Lexical.isNumeral {lexeme : Lexeme} (lexical : Lexical lexeme)
    (isNumber : lexeme.kind = .integer ∨ lexeme.kind = .float) :
    ∃ points hasExponent, IsNumeral lexeme.text points hasExponent ∧ points ≤ 1 ∧
      (lexeme.kind = .float ↔ points = 1 ∨ hasExponent = true) := by
  cases lexical with
  | integer form => exact ⟨0, false, form, Nat.zero_le 1, by simp⟩
  | @float _ points hasExponent form few marked =>
      exact ⟨points, hasExponent, form, few, by simp [marked]⟩
  | @word text _ =>
      have noWord : ∀ kind : Kind,
          kind = .integer ∨ kind = .float → kind.isWordLike = false := by
        intro kind isNumber
        rcases isNumber with rfl | rfl <;> rfl
      have isWordLike := Kind.isWordLike_ofWord (String.ofList text)
      rw [noWord _ isNumber] at isWordLike
      cases isWordLike
  | symbol isSymbol =>
      have noNumber : ∀ symbol ∈ symbols, ¬ (Kind.ofSymbol symbol = .integer ∨
          Kind.ofSymbol symbol = .float) := by
        simp [symbols, Kind.ofSymbol]
      exact (noNumber _ isSymbol isNumber).elim
  | manyPoints | string | numbered | named => simp at isNumber

namespace Token

variable {token : Token} (lexical : token.IsLexical)
  (isWordLike : token.kind.isWordLike)

include lexical isWordLike

theorem IsLexical.word_of_isWordLike :
    isWord token.text.toList ∧ Kind.ofWord token.text = token.kind := by
  have classified : token.kind ≠ .unclassified := by
    intro same
    rw [same] at isWordLike
    cases isWordLike
  have word := (lexical.resolve_left classified).word_of_isWordLike isWordLike
  rwa [String.ofList_toList] at word

theorem IsLexical.isWord_text : isWord token.text.toList :=
  (lexical.word_of_isWordLike isWordLike).1

theorem IsLexical.ofWord_text : Kind.ofWord token.text = token.kind :=
  (lexical.word_of_isWordLike isWordLike).2

end Token

/-- No lexeme but a string is a single point. -/
theorem Token.IsLexical.text_ne_point {token : Token}
    (lexical : token.IsLexical) (classified : token.kind ≠ .unclassified)
    (noString : token.kind ≠ .string) : token.text ≠ "." := by
  intro point
  have isLexical := lexical.resolve_left classified
  rw [point] at isLexical
  generalize lexemeIs : (⟨token.kind, ".".toList⟩ : Lexeme) = lexeme at isLexical
  have kindIs : token.kind = lexeme.kind := congrArg Lexeme.kind lexemeIs
  have textIs : ['.'] = lexeme.text := congrArg Lexeme.text lexemeIs
  cases isLexical with
  | word form =>
      cases textIs
      exact absurd form (by decide)
  | integer form | float form | manyPoints form =>
      cases textIs
      exact absurd (startsWithDigit_of_isNumeral form) (by decide)
  | string content => exact noString kindIs
  | numbered | named => exact classified kindIs
  | symbol isSymbol =>
      cases textIs
      simp [symbols] at isSymbol

end Criteria
