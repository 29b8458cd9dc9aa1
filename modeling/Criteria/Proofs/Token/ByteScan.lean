import Criteria.Proofs.Token.ByteClasses
import Mathlib.Data.List.TakeWhile

/-!
# The scan of the bytes

Each part of the scan of the bytes begins at the place of a character, and ends
at the place where the same part of the scan of the characters ends.  So a step
over the bytes takes the lexeme that is taken from the characters
(`step?_place`), and the scan of the bytes succeeds with the tokens of the scan
of the characters (`tokenizeBytes?_eq`).
-/

namespace Criteria

namespace ByteScan

section Numerals

variable (front back : List Char)

theorem passGroups_more {bytes : List UInt8} {position : Nat}
    (point : passes bytes position (· = code '.'))
    (digit : passes bytes (position + 1) isDigit) (points : Nat) :
    passGroups bytes position points =
      passGroups bytes (passOver bytes isDigit (position + 1)) (points + 1) := by
  rw [passGroups, dif_pos (by simp [point, digit])]

theorem passGroups_end {bytes : List UInt8} {position : Nat}
    (stops : (passes bytes position (· = code '.') &&
      passes bytes (position + 1) isDigit) = false) (points : Nat) :
    passGroups bytes position points = (position, points) := by
  rw [passGroups, dif_neg (by simp [stops])]

/-- Groups of digits are passed over as far as a mantissa is read. -/
theorem passGroups_place (points : Nat) :
    passGroups (utf8 (front ++ back))
        (passOver (utf8 (front ++ back)) isDigit (place front)) points =
      (place (front ++ (readMantissa back).spelling),
        points + (readMantissa back).points) := by
  fun_induction readMantissa back generalizing front points with
  | case1 =>
      have noDigit : passes (utf8 (front ++ [])) (place front) isDigit = false :=
        passes_digit front []
      have noPoint := @passes_symbol front [] '.' (by decide)
      rw [passOver_of_not_passes noDigit, passGroups_end (by rw [noPoint]; rfl)]
      simp
  | case2 character rest digit mantissa ih =>
      have ascii := (toNat_of_isWordPart (isWordPart_of_isDigit digit)).2
      have here : passes (utf8 (front ++ character :: rest)) (place front)
          isDigit := by
        rw [passes_digit]
        exact digit
      rw [passOver_of_passes here, place_behind front ascii, List.append_cons, ih]
      simp [mantissa]
  | case3 character rest noDigit starts mantissa ih =>
      obtain ⟨isPoint, digit⟩ : character = '.' ∧ startsWithDigit rest := by
        simpa using starts
      subst isPoint
      have stays : passes (utf8 (front ++ '.' :: rest)) (place front) isDigit =
          false := by
        rw [passes_digit]
        rfl
      have point := @passes_symbol front ('.' :: rest) '.' (by decide)
      have behind := @place_behind front '.' (by decide)
      have follows : passes (utf8 (front ++ '.' :: rest)) (place front + 1)
          isDigit := by
        rw [passes_behind _ _ (by decide), passes_digit]
        exact digit
      rw [passOver_of_not_passes stays, passGroups_more (by simpa using point) follows,
        behind, List.append_cons, ih]
      simp [mantissa, Nat.add_assoc, Nat.add_comm 1]
  | case4 character rest noDigit stops =>
      have stays : passes (utf8 (front ++ character :: rest)) (place front)
          isDigit = false := by
        rw [passes_digit]
        exact Bool.eq_false_iff.mpr noDigit
      have point := @passes_symbol front (character :: rest) '.' (by decide)
      have ends : (passes (utf8 (front ++ character :: rest)) (place front)
            (· = code '.') &&
          passes (utf8 (front ++ character :: rest)) (place front + 1) isDigit) =
            false := by
        by_cases isPoint : character = '.'
        · subst isPoint
          have noGroup : startsWithDigit rest = false := by simpa using stops
          rw [passes_behind _ _ (by decide), passes_digit, noGroup, Bool.and_false]
        · rw [point]
          simp [isPoint]
      rw [passOver_of_not_passes stays, passGroups_end ends]
      simp

/-- The sign of an exponent is passed over as it is split off. -/
theorem signEnd_place :
    (if passes (utf8 (front ++ back)) (place front)
        (fun byte => byte = code '+' || byte = code '-') then place front + 1
      else place front) = place (front ++ (splitSign back).1) := by
  rw [passes_place]
  cases back with
  | nil => simp [splitSign]
  | cons character rest =>
      have plus := @leadByte_eq_code character '+' (by decide)
      have minus := @leadByte_eq_code character '-' (by decide)
      simp only [List.head?_cons, Option.any_some, plus, minus, splitSign]
      split
      · rename_i isSign
        have ascii : character.toNat < 128 := by
          rcases (by simpa using isSign : character = '+' ∨ character = '-') with
            rfl | rfl
          · decide
          · decide
        rw [place_behind front ascii]
      · simp

/-- An exponent ends where it does among the characters. -/
theorem exponentEnd?_place :
    exponentEnd? (utf8 (front ++ back)) (place front) =
      if (readExponent back).1 = [] then none
      else some (place (front ++ (readExponent back).1)) := by
  cases back with
  | nil =>
      have noMark := passes_place front []
        fun byte => byte = code 'e' || byte = code 'E'
      rw [exponentEnd?, noMark]
      rfl
  | cons mark rest =>
      have small := @leadByte_eq_code mark 'e' (by decide)
      have big := @leadByte_eq_code mark 'E' (by decide)
      have isMark : passes (utf8 (front ++ mark :: rest)) (place front)
          (fun byte => byte = code 'e' || byte = code 'E') =
            (mark = 'e' || mark = 'E') := by
        rw [passes_place]
        simp only [List.head?_cons, Option.any_some, small, big]
      cases marked : (mark = 'e' || mark = 'E' : Bool) with
      | false =>
          rw [exponentEnd?, isMark, marked]
          simp [readExponent, marked]
      | true =>
          have ascii : mark.toNat < 128 := by
            rcases (by simpa using marked : mark = 'e' ∨ mark = 'E') with rfl | rfl
            · decide
            · decide
          have sign := signEnd_place (front ++ [mark]) rest
          rw [← place_behind front ascii, ← List.append_cons] at sign
          have text : front ++ mark :: rest =
              front ++ [mark] ++ (splitSign rest).1 ++ (splitSign rest).2 := by
            simp [splitSign_append rest]
          simp only [exponentEnd?, isMark, marked, if_true, sign]
          rw [text, passes_digit, passOver_place _ _ .isDigit]
          cases digit : startsWithDigit (splitSign rest).2 with
          | false => simp [readExponent, digit]
          | true => simp [readExponent, marked, digit]

/-- A numeral ends where it does among the characters, and has the same kind. -/
theorem numeralEnd_place :
    numeralEnd (utf8 (front ++ back)) (place front) =
      (place (front ++ (readNumeral back).1.spelling), (readNumeral back).1.kind) := by
  have groups := passGroups_place front back 0
  have text : front ++ back =
      front ++ (readMantissa back).spelling ++ (readMantissa back).rest := by
    rw [List.append_assoc, readMantissa_append]
  have exponent := exponentEnd?_place (front ++ (readMantissa back).spelling)
    (readMantissa back).rest
  rw [← text] at exponent
  simp only [numeralEnd, groups, exponent, readNumeral, Numeral.kind, Nat.zero_add]
  by_cases noExponent : (readExponent (readMantissa back).rest).1 = []
  · by_cases whole : (readMantissa back).points = 0
    · simp [noExponent, whole]
    · by_cases one : (readMantissa back).points = 1
      · simp [noExponent, one]
      · have many : ¬ (readMantissa back).points ≤ 1 := by omega
        simp [noExponent, whole, one, many]
  · by_cases few : (readMantissa back).points ≤ 1
    · simp [noExponent, few]
    · simp [noExponent, few]

end Numerals

section Quotes

variable {bytes : List UInt8} {lastPair : Option Nat} {position found : Nat}

theorem closingQuote?_missing (missing : findQuote? bytes position = some none) :
    closingQuote? bytes lastPair position = some lastPair := by
  rw [closingQuote?, missing]

theorem closingQuote?_single (isFound : findQuote? bytes position = some (some found))
    (single : passes bytes (found + 1) (· = code '\'') = false) :
    closingQuote? bytes lastPair position = some (some found) := by
  rw [closingQuote?, isFound]
  simp [single]

theorem closingQuote?_pair (isFound : findQuote? bytes position = some (some found))
    (doubled : passes bytes (found + 1) (· = code '\'')) (forward : position ≤ found) :
    closingQuote? bytes lastPair position =
      closingQuote? bytes (some found) (found + 2) := by
  rw [closingQuote?, isFound]
  simp [doubled, forward]

variable (front back : List Char)

/-- A quote is found where the characters in front of it end. -/
theorem findQuote?_place :
    findQuote? (utf8 (front ++ back)) (place front) =
      some (if '\'' ∈ back then some (place (front ++ back.takeWhile (· ≠ '\'')))
        else none) := by
  have whole : (utf8 (front ++ back)).length =
      place (front ++ back.takeWhile (· ≠ '\'')) +
        place (back.dropWhile (· ≠ '\'')) := by
    rw [← place_append, List.append_assoc, List.takeWhile_append_dropWhile, place]
  have within : place front ≤ (utf8 (front ++ back)).length := by
    rw [whole, place_append]
    omega
  have stops : place (front ++ back.takeWhile (· ≠ '\'')) <
      (utf8 (front ++ back)).length ↔ '\'' ∈ back := by
    rw [whole, Nat.lt_add_right_iff_pos, place_pos_iff, ne_eq,
      List.dropWhile_eq_nil_iff]
    simp
  rw [findQuote?, if_pos within, passOver_place _ _ .noQuote]
  simp only [stops]

theorem findQuote?_quote (rest : List Char) :
    findQuote? (utf8 (front ++ '\'' :: rest)) (place front) =
      some (some (place front)) := by
  rw [findQuote?_place]
  simp

/-- The search for the closing quote passes over any other character. -/
theorem closingQuote?_skip {character : Char} (other : character ≠ '\'')
    (rest : List Char) :
    closingQuote? (utf8 (front ++ character :: rest)) lastPair (place front) =
      closingQuote? (utf8 (front ++ character :: rest)) lastPair
        (place (front ++ [character])) := by
  have here := findQuote?_place front (character :: rest)
  have next := findQuote?_place (front ++ [character]) rest
  have passed : (character :: rest).takeWhile (· ≠ '\'') =
      character :: rest.takeWhile (· ≠ '\'') :=
    List.takeWhile_cons_of_pos (by simp [other])
  rw [← List.append_cons, ← List.append_cons] at next
  simp only [List.mem_cons, other.symm, false_or, passed] at here
  by_cases member : '\'' ∈ rest
  · rw [if_pos member] at here next
    cases doubled : passes (utf8 (front ++ character :: rest))
        (place (front ++ character :: rest.takeWhile (· ≠ '\'')) + 1)
        (· = code '\'') with
    | false => rw [closingQuote?_single here doubled, closingQuote?_single next doubled]
    | true =>
        rw [closingQuote?_pair here doubled (by simp),
          closingQuote?_pair next doubled (by simp)]
  · rw [if_neg member] at here next
    rw [closingQuote?_missing here, closingQuote?_missing next]

theorem closingQuote?_doubled (rest : List Char) :
    closingQuote? (utf8 (front ++ '\'' :: '\'' :: rest)) lastPair (place front) =
      closingQuote? (utf8 (front ++ '\'' :: '\'' :: rest)) (some (place front))
        (place (front ++ ['\'', '\''])) := by
  have doubled : passes (utf8 (front ++ '\'' :: '\'' :: rest)) (place front + 1)
      (· = code '\'') := by
    rw [passes_behind _ _ (by decide), passes_symbol _ _ (by decide)]
    simp
  rw [closingQuote?_pair (findQuote?_quote front _) doubled (Nat.le_refl _)]
  simp [@utf8Size_of_ascii '\'' (by decide)]

/-- The closing quote is the one at which the quoted text is read to end, and
without one the last doubled quote before the position is left. -/
theorem closingQuote?_place :
    closingQuote? (utf8 (front ++ back)) lastPair (place front) =
      some (((readQuoted back).map fun read =>
        place (front ++ doubleQuotes read.1)).or lastPair) := by
  have behindPair (front rest : List Char) :
      front ++ '\'' :: '\'' :: rest = front ++ ['\'', '\''] ++ rest := by
    simp
  -- A doubled quote becomes the last pair for what is read behind it.
  fun_induction readQuoted back generalizing front lastPair with
  | case1 =>
      have missing := findQuote?_place front []
      rw [closingQuote?_missing (by simpa using missing)]
      rfl
  | case2 rest content after inner ih =>
      rw [closingQuote?_doubled, behindPair, ih, inner]
      simp [doubleQuotes]
  | case3 rest inner ih =>
      rw [closingQuote?_doubled, behindPair, ih, inner]
      simp [doubleQuotes]
  | case4 rest noPair =>
      have single : passes (utf8 (front ++ '\'' :: rest)) (place front + 1)
          (· = code '\'') = false := by
        rw [passes_behind _ _ (by decide), passes_symbol _ _ (by decide),
          decide_eq_false_iff_not]
        intro startsPair
        cases rest with
        | nil => cases startsPair
        | cons second others =>
            cases startsPair
            exact noPair others rfl
      rw [closingQuote?_single (findQuote?_quote front rest) single]
      simp [doubleQuotes]
  | case5 character rest noPair noQuote content after inner ih =>
      rw [closingQuote?_skip front noQuote, List.append_cons, ih, inner]
      simp [doubleQuotes]
  | case6 character rest noPair noQuote inner ih =>
      rw [closingQuote?_skip front noQuote, List.append_cons, ih, inner]
      rfl

/-- Behind an opening quote the closing quote is found where the content that is
read ends. -/
theorem closingQuote?_opened (rest : List Char) :
    closingQuote? (utf8 (front ++ '\'' :: rest)) none (place front + 1) =
      some ((readQuoted rest).map fun read =>
        place (front ++ '\'' :: doubleQuotes read.1)) := by
  have found := @closingQuote?_place none (front ++ ['\'']) rest
  rw [← @place_behind front '\'' (by decide), Option.or_none] at found
  simpa only [List.append_assoc, List.singleton_append] using found

end Quotes

theorem joinQuotes_doubleQuotes (content : List Char) :
    joinQuotes (doubleQuotes content) = content := by
  fun_induction doubleQuotes content with
  | case1 => rfl
  | case2 rest ih => rw [joinQuotes, ih]
  | case3 character rest noQuote ih =>
      rw [joinQuotes, ih]
      intro _ same _
      exact noQuote same

section Steps

variable (front : List Char)

/-- The step over the lexeme that is taken from the characters. -/
def lexemeStep (first : Char) (rest : List Char) : Step :=
  .lexeme (readLexeme first rest).1
    (place (front ++ (readLexeme first rest).1.spelling))

theorem cut?_place (kind : List Char → Kind) (piece after : List Char) :
    cut? (front ++ (piece ++ after)) kind (place front) (place (front ++ piece)) =
      some (.lexeme ⟨kind piece, piece⟩ (place (front ++ piece))) := by
  rw [cut?, slice?_place]

theorem quoted?_place (rest : List Char) :
    quoted? (front ++ '\'' :: rest) (utf8 (front ++ '\'' :: rest)) (place front) =
      some (lexemeStep front '\'' rest) := by
  have opening := @place_behind front '\'' (by decide)
  cases read : readQuoted rest with
  | none =>
      rw [quoted?, closingQuote?_opened, read, lexemeStep, readLexeme_loneQuote read]
      exact congrArg (fun stop => some (Step.lexeme _ stop)) opening
  | some result =>
      obtain ⟨content, after⟩ := result
      have text : front ++ '\'' :: rest =
          front ++ ['\''] ++ (doubleQuotes content ++ '\'' :: after) := by
        simp [eq_of_readQuoted read]
      have piece := slice?_place (front ++ ['\'']) (doubleQuotes content) ('\'' :: after)
      rw [← text, ← opening, ← List.append_cons] at piece
      have closed := @place_behind (front ++ '\'' :: doubleQuotes content) '\''
        (by decide)
      simp only [quoted?, closingQuote?_opened, read, Option.map_some, piece,
        joinQuotes_doubleQuotes, closed, lexemeStep, readLexeme_quote read]
      simp [Lexeme.spelling, Kind.spell, quote]

theorem toNat_of_mem_symbols {symbol : Char} (isSymbol : symbol ∈ symbols) :
    symbol.toNat < 128 := by
  have ascii : symbols.all fun symbol => symbol.toNat < 128 := by decide
  simpa using List.all_eq_true.mp ascii symbol isSymbol

/-- A symbol is found by its byte, and no symbol by the first byte of another
character. -/
theorem find?_leadByte (first : Char) :
    (step?.symbols.find? fun symbol => code symbol = leadByte first) =
      if first ∈ symbols then some first else none := by
  by_cases isSymbol : first ∈ symbols
  · rw [if_pos isSymbol]
    simp only [symbols, List.mem_cons, List.not_mem_nil, or_false] at isSymbol
    rcases isSymbol with rfl | rfl | rfl | rfl | rfl | rfl | rfl <;> decide
  · rw [if_neg isSymbol, List.find?_eq_none]
    intro symbol member same
    have agrees := leadByte_eq_code first (toNat_of_mem_symbols member)
    have isFirst : first = symbol := agrees.mp (by simpa [eq_comm] using same)
    rw [isFirst] at isSymbol
    exact isSymbol member

variable (first : Char) (rest : List Char)

theorem isBlank_leadByte (isBlankByte : isBlank (leadByte first)) :
    Criteria.isBlank first ∧ first.toNat < 128 := by
  have space := @leadByte_eq_code first ' ' (by decide)
  have tab := @leadByte_eq_code first '\t' (by decide)
  have newline := @leadByte_eq_code first '\n' (by decide)
  have formFeed := @leadByte_eq_code first '\x0c' (by decide)
  have carriageReturn := @leadByte_eq_code first '\r' (by decide)
  have blanks : (((first = ' ' ∨ first = '\t') ∨ first = '\n') ∨ first = '\x0c') ∨
      first = '\r' := by
    rw [← space, ← tab, ← newline, ← formFeed, ← carriageReturn]
    simp only [isBlank, Bool.or_eq_true, decide_eq_true_eq] at isBlankByte
    exact isBlankByte
  rcases blanks with (((rfl | rfl) | rfl) | rfl) | rfl
  · decide
  · decide
  · decide
  · decide
  · decide

theorem character?_place :
    character? (front ++ first :: rest) (place front) =
      some (if Criteria.isBlank first then .blank (place (front ++ [first]))
        else .lexeme ⟨.unclassified, [first]⟩ (place (front ++ [first]))) := by
  have stop : place front + first.utf8Size = place (front ++ [first]) := by simp
  rw [character?, sliceFrom?_place]
  simp only [stop]
  split <;> rfl

section Lexemes

variable {first rest}

theorem step?_of_isWordStart (noBlank : isBlank (leadByte first) = false)
    (start : Criteria.isWordStart first) :
    step? (front ++ first :: rest) (utf8 (front ++ first :: rest)) (place front)
      (leadByte first) = some (lexemeStep front first rest) := by
  have ascii := (toNat_of_isWordPart (isWordPart_of_isWordStart start)).2
  have stop := passOver_behind front rest .isWordPart ascii
  have cut := cut?_place front (fun word => Kind.ofWord (String.ofList word))
    (first :: rest.takeWhile Criteria.isWordPart) (rest.dropWhile Criteria.isWordPart)
  rw [List.cons_append, List.takeWhile_append_dropWhile] at cut
  have spelling := Kind.spell_of_ne
    (Kind.ofWord_ne_string (String.ofList (first :: rest.takeWhile Criteria.isWordPart)))
  simp only [step?, noBlank, isWordStart_leadByte, start, if_true, stop, cut,
    lexemeStep, readLexeme_start start, Lexeme.spelling, spelling,
    Bool.false_eq_true, if_false]

theorem step?_of_isDigit (noBlank : isBlank (leadByte first) = false)
    (digit : first.isDigit) :
    step? (front ++ first :: rest) (utf8 (front ++ first :: rest)) (place front)
      (leadByte first) = some (lexemeStep front first rest) := by
  have noStart := isWordStart_of_isDigit digit
  have cut := cut?_place front (fun _ => (readNumeral (first :: rest)).1.kind)
    (readNumeral (first :: rest)).1.spelling (readNumeral (first :: rest)).2
  rw [readNumeral_append] at cut
  have spelling := Kind.spell_of_ne (readNumeral (first :: rest)).1.kind_ne_string
  simp only [step?, noBlank, isWordStart_leadByte, noStart, isDigit_leadByte, digit,
    numeralEnd_place, cut, lexemeStep, readLexeme_digit digit, Lexeme.spelling, spelling,
    if_true, Bool.false_eq_true, if_false]

theorem step?_of_quote :
    step? (front ++ '\'' :: rest) (utf8 (front ++ '\'' :: rest)) (place front)
      (leadByte '\'') = some (lexemeStep front '\'' rest) := by
  have isQuote : leadByte '\'' = code '\'' := by decide
  rw [isQuote, step?, if_neg (by decide), if_neg (by decide), if_neg (by decide),
    if_pos rfl, quoted?_place]

theorem step?_of_mark :
    step? (front ++ '?' :: rest) (utf8 (front ++ '?' :: rest)) (place front)
      (leadByte '?') = some (lexemeStep front '?' rest) := by
  have stop := @passOver_behind _ _ front rest .isDigit '?' (by decide)
  have cut := cut?_place front (fun _ => .unclassified)
    ('?' :: rest.takeWhile Char.isDigit) (rest.dropWhile Char.isDigit)
  rw [List.cons_append, List.takeWhile_append_dropWhile] at cut
  have isMark : leadByte '?' = code '?' := by decide
  have spelling : Kind.spell .unclassified ('?' :: rest.takeWhile Char.isDigit) =
      '?' :: rest.takeWhile Char.isDigit := Kind.spell_of_ne (by decide) _
  rw [isMark, step?, if_neg (by decide), if_neg (by decide), if_neg (by decide),
    if_neg (by decide), if_pos rfl, stop, cut, lexemeStep, readLexeme_mark,
    Lexeme.spelling, spelling]

theorem step?_of_colon (letter : startsWithLetter rest) :
    step? (front ++ ':' :: rest) (utf8 (front ++ ':' :: rest)) (place front)
      (leadByte ':') = some (lexemeStep front ':' rest) := by
  have isLetter : passes (utf8 (front ++ ':' :: rest)) (place front + 1) isLetter := by
    rw [passes_behind _ _ (by decide), passes_letter]
    exact letter
  cases rest with
  | nil => cases letter
  | cons first others =>
      have isPart : passes (utf8 (front ++ ':' :: first :: others)) (place front + 1)
          isPlaceholderPart := by
        rw [passes_behind _ _ (by decide), passes_place]
        exact (isPlaceholderPart_leadByte first).trans
          (isPlaceholderPart_of_isAlpha letter)
      have stop := @passOver_behind _ _ front (first :: others) .isPlaceholderPart ':'
        (by decide)
      rw [passOver_of_passes isPart] at stop
      have cut := cut?_place front (fun _ => .unclassified)
        (':' :: (first :: others).takeWhile Criteria.isPlaceholderPart)
        ((first :: others).dropWhile Criteria.isPlaceholderPart)
      rw [List.cons_append, List.takeWhile_append_dropWhile] at cut
      have isColon : leadByte ':' = code ':' := by decide
      have spelling := @Kind.spell_of_ne .unclassified (by decide)
      rw [isColon, step?, if_neg (by decide), if_neg (by decide), if_neg (by decide),
        if_neg (by decide), if_neg (by decide), if_pos (by simp [isLetter]), stop, cut,
        lexemeStep, readLexeme_colon letter, Lexeme.spelling, spelling]

/-- Where no other lexeme begins the step takes a symbol, a blank or a stray
character. -/
theorem step?_of_other (noBlank : isBlank (leadByte first) = false)
    (noStart : Criteria.isWordStart first = false) (noDigit : first.isDigit = false)
    (noQuote : first ≠ '\'') (noMark : first ≠ '?')
    (noName : (first = ':' && startsWithLetter rest) = false) :
    step? (front ++ first :: rest) (utf8 (front ++ first :: rest)) (place front)
      (leadByte first) =
        some (if Criteria.isBlank first then .blank (place (front ++ [first]))
          else lexemeStep front first rest) := by
  have reads : readLexeme first rest = (⟨.ofSymbol first, [first]⟩, rest) := by
    rw [readLexeme, if_neg (by simp [noStart]), if_neg (by simp [noDigit]),
      if_neg noQuote, if_neg noMark, if_neg (by simp [noName])]
  have byteNoQuote : leadByte first ≠ code '\'' := by
    rwa [ne_eq, leadByte_eq_code first (by decide)]
  have byteNoMark : leadByte first ≠ code '?' := by
    rwa [ne_eq, leadByte_eq_code first (by decide)]
  have byteNoName : (leadByte first = code ':' &&
      passes (utf8 (front ++ first :: rest)) (place front + 1) isLetter) = false := by
    by_cases isColon : first = ':'
    · subst isColon
      have noLetter : startsWithLetter rest = false := by simpa using noName
      rw [passes_behind _ _ (by decide), passes_letter, noLetter, Bool.and_false]
    · have colon := leadByte_eq_code first (by decide : ':'.toNat < 128)
      simp [colon, isColon]
  have spelling := Kind.spell_of_ne (Kind.ofSymbol_ne_string first)
  rw [step?, if_neg (by simp [noBlank]), if_neg (by simp [isWordStart_leadByte, noStart]),
    if_neg (by simp [isDigit_leadByte, noDigit]), if_neg byteNoQuote, if_neg byteNoMark,
    if_neg (by simp [byteNoName]), find?_leadByte]
  by_cases isSymbol : first ∈ symbols
  · have ascii := toNat_of_mem_symbols isSymbol
    simp only [isSymbol, if_true, isBlank_of_mem_symbols isSymbol, lexemeStep, reads,
      place_behind front ascii, Lexeme.spelling, spelling, Bool.false_eq_true, if_false]
  · have stray : Kind.spell .unclassified [first] = [first] :=
      Kind.spell_of_ne (by decide) _
    simp only [isSymbol, if_false, character?_place, lexemeStep, reads,
      ofSymbol_of_not_mem isSymbol, Lexeme.spelling, stray]

end Lexemes

/-- A step over the bytes takes what is taken from the characters. -/
theorem step?_place :
    step? (front ++ first :: rest) (utf8 (front ++ first :: rest)) (place front)
      (leadByte first) =
        some (if Criteria.isBlank first then .blank (place (front ++ [first]))
          else lexemeStep front first rest) := by
  cases blankByte : isBlank (leadByte first) with
  | true =>
      obtain ⟨blank, ascii⟩ := isBlank_leadByte first blankByte
      rw [step?, if_pos blankByte, place_behind front ascii, if_pos blank]
  | false =>
      have ofPart (part : Criteria.isWordPart first) :
          ¬ Criteria.isBlank first = true := by
        simp [isBlank_of_isWordPart part]
      cases start : Criteria.isWordStart first with
      | true =>
          rw [if_neg (ofPart (isWordPart_of_isWordStart start)),
            step?_of_isWordStart front blankByte start]
      | false =>
      cases digit : first.isDigit with
      | true =>
          rw [if_neg (ofPart (isWordPart_of_isDigit digit)),
            step?_of_isDigit front blankByte digit]
      | false =>
      by_cases isQuote : first = '\''
      · subst isQuote
        rw [if_neg (by decide), step?_of_quote]
      by_cases isMark : first = '?'
      · subst isMark
        rw [if_neg (by decide), step?_of_mark]
      cases isName : (first = ':' && startsWithLetter rest : Bool) with
      | true =>
          obtain ⟨isColon, letter⟩ : first = ':' ∧ startsWithLetter rest := by
            simpa using isName
          subst isColon
          rw [if_neg (by decide), step?_of_colon front letter]
      | false =>
          exact step?_of_other front blankByte start digit isQuote isMark isName

end Steps

section Scan

variable {text : List Char} {mark : Mark} {start : Nat}

/-- From a mark behind some characters a later one is found by counting those
between. -/
theorem moveTo?_place (before between back : List Char) :
    Mark.moveTo? ⟨place before, before.length⟩ (before ++ (between ++ back))
        (place (before ++ between)) =
      some ⟨place (before ++ between), (before ++ between).length⟩ := by
  rw [Mark.moveTo?, slice?_place, List.length_append]

theorem scan?_end (missing : (utf8 text)[start]? = none) :
    scan? text (utf8 text) mark start = some [] := by
  rw [scan?]
  split
  · rfl
  · rename_i byte present
    rw [missing] at present
    cases present

theorem scan?_blank {byte : UInt8} {stop : Nat}
    (found : (utf8 text)[start]? = some byte)
    (taken : step? text (utf8 text) start byte = some (.blank stop))
    (forward : start < stop) :
    scan? text (utf8 text) mark start = scan? text (utf8 text) mark stop := by
  rw [scan?]
  split
  · rename_i missing
    rw [missing] at found
    cases found
  · rename_i other present
    rw [present] at found
    cases found
    simp only [taken, Step.stop]
    exact dif_pos forward

theorem scan?_lexeme {byte : UInt8} {lexeme : Lexeme} {stop : Nat} {next : Mark}
    (found : (utf8 text)[start]? = some byte)
    (taken : step? text (utf8 text) start byte = some (.lexeme lexeme stop))
    (forward : start < stop) (moved : mark.moveTo? text start = some next) :
    scan? text (utf8 text) mark start =
      (scan? text (utf8 text) next stop).map (lexeme.toToken next.offset :: ·) := by
  rw [scan?]
  split
  · rename_i missing
    rw [missing] at found
    cases found
  · rename_i other present
    rw [present] at found
    cases found
    simp only [taken, Step.stop, forward, dite_true, moved]
    cases scan? text (utf8 text) next stop <;> rfl

/-- From behind any characters on, the scan of the bytes gives the tokens that
the scan of the characters gives. -/
theorem scan?_place (before between back : List Char) :
    scan? (before ++ (between ++ back)) (utf8 (before ++ (between ++ back)))
        ⟨place before, before.length⟩ (place (before ++ between)) =
      some (scan (before ++ between).length back) := by
  generalize same : (before ++ between).length = offset
  fun_induction scan offset back generalizing before between with
  | case1 offset =>
      rw [scan?_end]
      rw [List.append_nil, place]
      exact List.getElem?_eq_none (Nat.le_refl _)
  | case2 offset first rest blank ih =>
      have found := getElem?_place (before ++ between) (first :: rest)
      have taken := step?_place (before ++ between) first rest
      rw [List.append_assoc] at found taken
      rw [if_pos blank] at taken
      have others := ih before (between ++ [first]) (by simp [← same, Nat.add_assoc])
      rw [scan?_blank found taken (by simp [Char.utf8Size_pos])]
      simpa using others
  | case3 offset first rest noBlank step ih =>
      have found := getElem?_place (before ++ between) (first :: rest)
      have taken := step?_place (before ++ between) first rest
      rw [List.append_assoc] at found taken
      rw [if_neg noBlank, lexemeStep] at taken
      have moved := moveTo?_place before between (first :: rest)
      have forward : place (before ++ between) <
          place (before ++ between ++ step.1.spelling) := by
        have taken := place_pos_iff.mpr (spelling_readLexeme_ne_nil first rest)
        rw [place_append _ step.1.spelling]
        exact Nat.lt_add_of_pos_right taken
      have others := ih (before ++ between) step.1.spelling
        (by rw [List.length_append, same])
      rw [readLexeme_append, List.append_assoc] at others
      rw [scan?_lexeme found taken forward moved, others, same]
      rfl

end Scan

end ByteScan

/-- The scan of the bytes fails nowhere, and gives the tokens of the scan of the
characters. -/
theorem tokenizeBytes?_eq (input : String) :
    tokenizeBytes? input = some (tokenize input) :=
  ByteScan.scan?_place [] [] input.toList

end Criteria
