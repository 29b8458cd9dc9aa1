import Criteria.Proofs.Token.Longest
import Criteria.Token.Layout

/-!
# Parts of an input

An input can be divided in front of each of its tokens.  The tokens behind the
division are those of the second part taken by itself, and the tokens in front
of it stay what they are when the second part is replaced, as long as the
replacement begins at a boundary and holds no quote.
-/

namespace Criteria

/-- No character of the text is a boundary. -/
def Unbroken (text : List Char) : Prop :=
  ∀ character ∈ text, isBoundary [character] = false

namespace Unbroken

variable {front back : List Char}

theorem cons {first : Char} (inside : isBoundary [first] = false)
    (unbroken : Unbroken back) : Unbroken (first :: back) :=
  List.forall_mem_cons.mpr ⟨inside, unbroken⟩

theorem append (isFront : Unbroken front) (isBack : Unbroken back) :
    Unbroken (front ++ back) :=
  List.forall_mem_append.mpr ⟨isFront, isBack⟩

theorem of_all {part : Char → Bool} (parts : back.all part)
    (inWord : ∀ character, part character → isWordPart character) :
    Unbroken back := by
  intro character member
  apply Bool.eq_false_iff.mpr
  intro boundary
  have noPart := isWordPart_of_isBoundary boundary
  rw [inWord character (List.all_eq_true.mp parts character member)] at noPart
  cases noPart

theorem of_isDigits {digits : List Char} (areDigits : isDigits digits) :
    Unbroken digits :=
  of_all (Bool.and_eq_true_iff.mp areDigits).2 fun _ => isWordPart_of_isDigit

theorem of_afterPoints {groups : List (List Char)}
    (areGroups : ∀ group ∈ groups, isDigits group) :
    Unbroken (afterPoints groups) := by
  intro character member
  obtain ⟨group, isGroup, inGroup⟩ := List.mem_flatMap.mp member
  rcases List.mem_cons.mp inGroup with rfl | inDigits
  · decide
  · exact of_isDigits (areGroups group isGroup) character inDigits

theorem of_isExponent {exponent : List Char} (isExponent : IsExponent exponent) :
    Unbroken exponent := by
  cases isExponent with
  | @intro mark sign digits isMark isSign areDigits =>
      have markInside : isBoundary [mark] = false := by
        rcases isMark with rfl | rfl <;> decide
      have plusInside : isBoundary ['+'] = false := by decide
      have minusInside : isBoundary ['-'] = false := by decide
      have isSign : Unbroken sign := by
        rcases isSign with rfl | rfl | rfl
        · simp [Unbroken]
        · simp [Unbroken, plusInside]
        · simp [Unbroken, minusInside]
      exact cons markInside (isSign.append (of_isDigits areDigits))

theorem of_isNumeral {text : List Char} {points : Nat} {hasExponent : Bool}
    (isNumeral : IsNumeral text points hasExponent) : Unbroken text := by
  cases isNumeral with
  | plain wholeDigits groupDigits =>
      exact (of_isDigits wholeDigits).append (of_afterPoints groupDigits)
  | scientific wholeDigits groupDigits isExponent =>
      exact ((of_isDigits wholeDigits).append (of_afterPoints groupDigits)).append
        (of_isExponent isExponent)

end Unbroken

/-- Behind the first character of a lexeme that is no string no boundary lies
within it. -/
theorem Lexical.unbroken_tail {lexeme : Lexeme} (lexical : Lexical lexeme)
    (noString : lexeme.kind ≠ .string) : Unbroken lexeme.spelling.tail := by
  rw [Lexeme.spelling, Kind.spell_of_ne noString]
  cases lexical with
  | @word text form =>
      cases text with
      | nil => cases form
      | cons first others =>
          exact .of_all (Bool.and_eq_true_iff.mp form).2 fun _ => id
  | integer form | float form | manyPoints form =>
      have unbroken := Unbroken.of_isNumeral form
      intro character member
      exact unbroken character (List.mem_of_mem_tail member)
  | string => exact (noString rfl).elim
  | numbered areDigits => exact .of_all areDigits fun _ => isWordPart_of_isDigit
  | named letter areParts =>
      have isPart := isPlaceholderPart_of_isAlpha letter
      exact .of_all (by simp [isPart, areParts])
        fun _ => isWordPart_of_isPlaceholderPart
  | symbol => simp [Unbroken]

theorem Lexeme.spelling_of_isString {lexeme : Lexeme}
    (isString : lexeme.kind = .string) : lexeme.spelling = quote lexeme.text :=
  if_pos isString

/-- A lexeme that goes on across a boundary ends with a closing quote. -/
theorem Lexical.quote_mem_of_boundary {lexeme : Lexeme} (lexical : Lexical lexeme)
    {first character : Char} {front back : List Char}
    (spelled : lexeme.spelling = first :: (front ++ character :: back))
    (boundary : isBoundary [character]) : '\'' ∈ character :: back := by
  by_cases isString : lexeme.kind = .string
  · have quoted := Lexeme.spelling_of_isString isString
    have last : (quote lexeme.text).getLast? = some '\'' := by
      rw [quote, ← List.cons_append, List.getLast?_append]
      rfl
    rw [← quoted, spelled, ← List.cons_append, List.getLast?_append,
      List.getLast?_cons, Option.some_or] at last
    exact List.mem_of_getLast? ((List.getLast?_cons).trans last)
  · have inside : character ∈ lexeme.spelling.tail := by simp [spelled]
    rw [lexical.unbroken_tail isString character inside] at boundary
    cases boundary

section Division

variable {first : Char} {front back : List Char}

/-- What may replace the text behind a division. -/
structure Detached (text : List Char) : Prop where
  boundary : isBoundary text
  noQuote : '\'' ∉ text

/-- No lexeme reaches from in front of a detached text into it. -/
theorem Lexeme.Begins.within {lexeme : Lexeme}
    (begins : lexeme.Begins (first :: (front ++ back))) (detached : Detached back) :
    lexeme.spelling <+: first :: front := by
  obtain ⟨lexical, isPrefix⟩ := begins
  have whole : first :: front <+: first :: (front ++ back) :=
    List.prefix_append (first :: front) back
  rcases List.prefix_or_prefix_of_prefix isPrefix whole with inside | ⟨more, longer⟩
  · exact inside
  · cases more with
    | nil =>
        rw [List.append_nil] at longer
        exact longer ▸ List.prefix_rfl
    | cons character others =>
        obtain ⟨after, split⟩ := isPrefix
        rw [← longer, List.append_assoc] at split
        have same : character :: others ++ after = back :=
          List.append_cancel_left (split.trans (List.cons_append).symm)
        have boundary : isBoundary [character] := by
          have atFront := detached.boundary
          rwa [← same] at atFront
        have quoted := lexical.quote_mem_of_boundary longer.symm boundary
        refine (detached.noQuote ?_).elim
        rw [← same]
        exact List.mem_append_left after quoted

/-- A step of the scan that stays in front of a division takes the same lexeme
when the text behind the division is replaced by a detached one. -/
theorem readLexeme_detached {lexeme : Lexeme} {others between more : List Char}
    (reads : readLexeme first (others ++ (between ++ back)) =
      (lexeme, between ++ back))
    (spelled : lexeme.spelling = first :: others) (detached : Detached more) :
    readLexeme first (others ++ (between ++ more)) = (lexeme, between ++ more) := by
  have back_of_more {other : Lexeme}
      (begins : other.Begins (first :: (others ++ (between ++ more)))) :
      other.Begins (first :: (others ++ (between ++ back))) := by
    rw [← List.append_assoc] at begins ⊢
    have inside := begins.within detached
    exact ⟨begins.1, inside.trans (List.prefix_append _ back)⟩
  rcases isLongest_or_stray first (others ++ (between ++ back)) with
    longest | ⟨stray, noLexeme⟩
  · rw [reads] at longest
    apply Lexeme.IsLongest.readLexeme_eq
    · refine ⟨⟨longest.1.1, between ++ more, by rw [spelled]; rfl⟩, ?_⟩
      intro other begins
      exact longest.2 other (back_of_more begins)
    · rw [spelled]
      rfl
  · rw [reads] at stray
    have same : lexeme = ⟨.unclassified, [first]⟩ := stray
    rw [same] at spelled
    have alone : others = [] := (List.cons.inj spelled).2.symm
    rw [same]
    subst alone
    exact readLexeme_of_stray fun other begins => noLexeme other (back_of_more begins)

end Division

/-- A text, which begins at an offset of the input, is divided into the part
that holds the first tokens and the part that begins with the others. -/
structure Divides (offset : Nat) (used rest : List Token)
    (front back : List Char) : Prop where
  behind : scan (offset + front.length) back = rest
  atToken : ∀ token ∈ rest.head?, token.offset = offset + front.length
  atEnd : rest = [] → back = []
  kept : ∀ more, Detached more →
    scan offset (front ++ more) = used ++ scan (offset + front.length) more

namespace Divides

variable {offset : Nat} {used rest : List Token} {front back : List Char}

theorem here {text : List Char} (scanned : scan offset text = rest)
    (atStart : ∀ token ∈ rest.head?, token.offset = offset)
    (atEnd : rest = [] → text = []) : Divides offset [] rest [] text where
  behind := scanned
  atToken := atStart
  atEnd := atEnd
  kept := fun _ _ => rfl

theorem blank {first : Char} (isBlank : isBlank first)
    (divides : Divides (offset + 1) used rest front back) :
    Divides offset used rest (first :: front) back := by
  have place : offset + (first :: front).length = offset + 1 + front.length := by
    rw [List.length_cons]
    omega
  constructor
  · rw [place]
    exact divides.behind
  · rw [place]
    exact divides.atToken
  · exact divides.atEnd
  · intro more detached
    rw [place, List.cons_append, scan_blank isBlank]
    exact divides.kept more detached

theorem lexeme {first : Char} {others : List Char} {lexeme : Lexeme}
    (noBlank : isBlank first = false)
    (reads : readLexeme first (others ++ (front ++ back)) = (lexeme, front ++ back))
    (spelled : lexeme.spelling = first :: others)
    (divides : Divides (offset + lexeme.spelling.length) used rest front back) :
    Divides offset (lexeme.toToken offset :: used) rest
      (first :: (others ++ front)) back := by
  have place : offset + (first :: (others ++ front)).length =
      offset + lexeme.spelling.length + front.length := by
    rw [spelled, List.length_cons, List.length_cons, List.length_append]
    omega
  constructor
  · rw [place]
    exact divides.behind
  · rw [place]
    exact divides.atToken
  · exact divides.atEnd
  · intro more detached
    rw [place, List.cons_append, List.append_assoc, scan,
      if_neg (by simp [noBlank]), readLexeme_detached reads spelled detached]
    exact congrArg _ (divides.kept more detached)

end Divides

/-- A text can be divided in front of each of its tokens and behind the last. -/
theorem exists_divides {offset : Nat} {text : List Char} {used rest : List Token}
    (split : scan offset text = used ++ rest) :
    ∃ front back, text = front ++ back ∧ Divides offset used rest front back := by
  fun_induction scan offset text generalizing used with
  | case1 offset =>
      obtain ⟨rfl, rfl⟩ := List.append_eq_nil_iff.mp split.symm
      refine ⟨[], [], rfl, .here ?_ (by simp) fun _ => rfl⟩
      rw [scan]
  | case2 offset first others isBlank ih =>
      obtain ⟨front, back, rfl, divides⟩ := ih split
      exact ⟨first :: front, back, rfl, divides.blank isBlank⟩
  | case3 offset first others notBlank step =>
      rename_i ih
      have noBlank : isBlank first = false := by simpa using notBlank
      have whole : step.1.spelling ++ step.2 = first :: others :=
        readLexeme_append first others
      -- With no token in front the text is divided here, and else behind the
      -- lexeme of this step.
      cases used with
      | nil =>
          have scanned : scan offset (first :: others) = rest := by
            rw [scan, if_neg notBlank]
            exact split
          refine ⟨[], first :: others, rfl, .here scanned ?_ ?_⟩
          · rw [List.nil_append] at split
            simp [← split, Lexeme.toToken]
          · intro none
            rw [none] at split
            cases split
      | cons token used =>
          obtain ⟨rfl, later⟩ := List.cons.inj split
          obtain ⟨front, back, remainder, divides⟩ := ih later
          cases spelled : step.1.spelling with
          | nil => exact (spelling_readLexeme_ne_nil first others spelled).elim
          | cons head tail =>
              rw [spelled, remainder] at whole
              obtain ⟨rfl, behind⟩ := List.cons.inj whole
              have same : tail ++ (front ++ back) = others := behind
              have reads : readLexeme head (tail ++ (front ++ back)) =
                  (step.1, front ++ back) := by
                rw [same, ← remainder]
              refine ⟨head :: (tail ++ front), back, ?_,
                divides.lexeme noBlank reads spelled⟩
              rw [← same, List.cons_append, List.append_assoc]

/-- Tokens of a text further behind in the input are the same, further behind. -/
theorem scan_shift (offset distance : Nat) (text : List Char) :
    scan (offset + distance) text = (scan offset text).map (Token.shift distance) := by
  fun_induction scan offset text with
  | case1 => rw [scan, List.map_nil]
  | case2 offset first rest isBlank ih =>
      rw [scan_blank isBlank, Nat.add_right_comm, ih]
  | case3 offset first rest notBlank step ih =>
      have place : offset + distance + step.1.spelling.length =
          offset + step.1.spelling.length + distance := Nat.add_right_comm ..
      rw [scan, if_neg notBlank, List.map_cons, ← ih, ← place]
      rfl

namespace Divides

variable {used rest : List Token} {front back : List Char}

/-- The tokens behind the division are those of the second part, moved behind
the first. -/
theorem rest_eq (divides : Divides 0 used rest front back) :
    rest = (tokenize (String.ofList back)).map (Token.shift front.length) := by
  rw [tokenize, String.toList_ofList, ← scan_shift]
  exact divides.behind.symm

theorem tokenize_kept (divides : Divides 0 used rest front back)
    {more : List Char} (detached : Detached more) :
    tokenize (String.ofList (front ++ more)) = used ++ scan front.length more := by
  rw [tokenize, String.toList_ofList, divides.kept more detached, Nat.zero_add]

end Divides

end Criteria
