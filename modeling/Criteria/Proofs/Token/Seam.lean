import Criteria.Proofs.Token.Part

/-!
# Seams between texts

When every token of a text is classified, nothing in it was left open: a text
that is put behind it and begins at a boundary has tokens of its own, and those
in front of the seam stay what they are.  Quotes behind the seam do not matter,
since every string in front of it has its closing quote.
-/

namespace Criteria

/-- No token is unclassified. -/
def AreClassified (tokens : List Token) : Prop :=
  ∀ token ∈ tokens, token.kind ≠ .unclassified

theorem areClassified_nil : AreClassified [] := by
  intro token member
  cases member

section Classified

variable {token : Token} {tokens left right : List Token}

theorem AreClassified.cons (classified : token.kind ≠ .unclassified)
    (areOthers : AreClassified tokens) : AreClassified (token :: tokens) :=
  List.forall_mem_cons.mpr ⟨classified, areOthers⟩

theorem AreClassified.cons_of_kind {kind : Kind} (isKind : token.kind = kind)
    (classified : kind ≠ .unclassified) (areOthers : AreClassified tokens) :
    AreClassified (token :: tokens) :=
  .cons (isKind ▸ classified) areOthers

theorem AreClassified.append (areLeft : AreClassified left)
    (areRight : AreClassified right) : AreClassified (left ++ right) :=
  List.forall_mem_append.mpr ⟨areLeft, areRight⟩

theorem AreClassified.enclosed {opening closing : Token}
    (isOpening : opening.kind = .openParen) (areInner : AreClassified tokens)
    (isClosing : closing.kind = .closeParen) :
    AreClassified (opening :: (tokens ++ [closing])) :=
  .cons_of_kind isOpening (by decide)
    (areInner.append (.cons_of_kind isClosing (by decide) areClassified_nil))

end Classified

/-- A quoted text is followed by a further quote only when no quoted text can
be read behind that one. -/
theorem readQuoted_eq_none_of_quote {input content after : List Char}
    (read : readQuoted input = some (content, '\'' :: after)) :
    readQuoted after = none := by
  fun_induction readQuoted input generalizing content with
  | case1 => cases read
  | case2 rest inner behind readInner ih =>
      obtain ⟨-, rfl⟩ := Prod.mk.inj (Option.some.inj read)
      exact ih readInner
  | case3 rest unread =>
      obtain ⟨-, same⟩ := Prod.mk.inj (Option.some.inj read)
      rwa [← (List.cons.inj same).2]
  | case4 rest noPair =>
      obtain ⟨-, same⟩ := Prod.mk.inj (Option.some.inj read)
      exact (noPair after same).elim
  | case5 character rest noPair noQuote inner behind readInner ih =>
      obtain ⟨-, rfl⟩ := Prod.mk.inj (Option.some.inj read)
      exact ih readInner
  | case6 => cases read

/-- What begins with a quote is a string. -/
theorem Lexical.kind_of_quote {lexeme : Lexeme} (lexical : Lexical lexeme)
    {after others : List Char}
    (begins : lexeme.spelling ++ after = '\'' :: others) :
    lexeme.kind = .string := by
  obtain ⟨first, tail, spelled, -, -⟩ := readLexeme_of_lexical lexical isBoundary_nil
  rw [spelled] at begins
  obtain ⟨rfl, -⟩ := List.cons.inj begins
  cases lexical with
  | @word text form =>
      have isText : text = '\'' :: tail := by
        rwa [Lexeme.spelling, Kind.spell_of_ne (Kind.ofWord_ne_string _)] at spelled
      rw [isText] at form
      cases form
  | @integer text form | @float text _ _ form | @manyPoints text _ _ form =>
      have isText : text = '\'' :: tail := spelled
      have starts := startsWithDigit_of_isNumeral form
      rw [isText] at starts
      cases starts
  | string content => rfl
  | numbered | named => cases spelled
  | symbol isSymbol =>
      rw [Lexeme.spelling, Kind.spell_of_ne (Kind.ofSymbol_ne_string _)] at spelled
      cases spelled
      simp [symbols] at isSymbol

section Seam

variable {lexeme : Lexeme} {first : Char} {after more : List Char}

/-- A lexeme that begins a text and goes on across a seam is a string. -/
theorem Lexeme.Begins.string_of_not_prefix {input : List Char}
    (begins : lexeme.Begins (input ++ more)) (nonempty : input ≠ [])
    (boundary : isBoundary more) (across : ¬ lexeme.spelling <+: input) :
    lexeme.kind = .string := by
  obtain ⟨lexical, isPrefix⟩ := begins
  have whole : input <+: input ++ more := List.prefix_append input more
  obtain ⟨further, longer⟩ :=
    (List.prefix_or_prefix_of_prefix isPrefix whole).resolve_left across
  by_cases isString : lexeme.kind = .string
  · exact isString
  have unbroken := lexical.unbroken_tail isString
  cases further with
  | nil =>
      rw [List.append_nil] at longer
      exact (across (longer ▸ List.prefix_rfl)).elim
  | cons character rest =>
      obtain ⟨behind, split⟩ := isPrefix
      rw [← longer, List.append_assoc] at split
      have same : character :: rest ++ behind = more :=
        List.append_cancel_left split
      have inside : character ∈ lexeme.spelling.tail := by
        rw [← longer, List.tail_append_of_ne_nil nonempty]
        simp
      have atSeam : isBoundary [character] := by
        rwa [← same] at boundary
      rw [unbroken character inside] at atSeam
      cases atSeam

/-- A step of the scan that takes a classified lexeme takes the same one when a
text is put behind, unless a string might go on with a further quote. -/
theorem readLexeme_append_seam {rest : List Char}
    (reads : readLexeme first rest = (lexeme, after))
    (classified : lexeme.kind ≠ .unclassified)
    (closed : lexeme.kind = .string → after.head? ≠ some '\'')
    (boundary : isBoundary more) :
    readLexeme first (rest ++ more) = (lexeme, after ++ more) := by
  have whole := readLexeme_append first rest
  rw [reads] at whole
  have longest : lexeme.IsLongest (first :: rest) := by
    rcases isLongest_or_stray first rest with longest | ⟨stray, -⟩
    · rwa [reads] at longest
    · rw [reads] at stray
      have isStray : lexeme = ⟨.unclassified, [first]⟩ := stray
      exact (classified (by rw [isStray])).elim
  have remainder : first :: (rest ++ more) = lexeme.spelling ++ (after ++ more) := by
    rw [← List.append_assoc, whole, List.cons_append]
  by_cases isString : lexeme.kind = .string
  · rw [Lexeme.spelling_of_isString isString, quote, List.cons_append, List.append_assoc] at remainder
    obtain ⟨rfl, rest_eq⟩ := List.cons.inj remainder
    have noQuote : (after ++ more).head? ≠ some '\'' := by
      cases after with
      | nil => exact head?_ne_of_isBoundary boundary (by decide)
      | cons second others => exact closed isString
    rw [rest_eq, List.singleton_append, readLexeme_string noQuote, ← isString]
  · apply Lexeme.IsLongest.readLexeme_eq _ remainder
    refine ⟨⟨longest.1.1, after ++ more, remainder.symm⟩, ?_⟩
    intro other begins
    rw [← List.cons_append] at begins
    by_cases within : other.spelling <+: first :: rest
    · exact longest.2 other ⟨begins.1, within⟩
    · -- Only a string reaches across the seam, and no string begins here.
      have otherString := begins.string_of_not_prefix (by simp) boundary within
      obtain ⟨-, behind, split⟩ := begins
      rw [Lexeme.spelling_of_isString otherString] at split
      obtain ⟨isQuote, -⟩ := List.cons.inj split
      rw [← isQuote] at whole
      exact (isString (longest.1.1.kind_of_quote whole)).elim

end Seam

/-- A step that takes a string has read a quoted text. -/
theorem readQuoted_of_isString {first : Char} {rest : List Char}
    (isString : (readLexeme first rest).1.kind = .string) :
    ∃ content after, readQuoted rest = some (content, after) ∧
      (readLexeme first rest).2 = after := by
  have whole := readLexeme_append first rest
  rw [Lexeme.spelling_of_isString isString, quote, List.cons_append] at whole
  obtain rfl : first = '\'' := (List.cons.inj whole).1.symm
  cases read : readQuoted rest with
  | none => simp [readLexeme, isWordStart, read] at isString
  | some result => exact ⟨result.1, result.2, rfl, by rw [readLexeme_quote read]⟩

/-- A string that a step takes from a text of classified tokens is followed by
no further quote. -/
theorem head?_ne_quote_of_classified {first : Char} {rest : List Char}
    {offset : Nat}
    (isString : (readLexeme first rest).1.kind = .string)
    (classified : AreClassified (scan offset (readLexeme first rest).2)) :
    (readLexeme first rest).2.head? ≠ some '\'' := by
  intro isQuote
  obtain ⟨content, after, read, remainder⟩ := readQuoted_of_isString isString
  rw [remainder] at isQuote classified
  cases after with
  | nil => cases isQuote
  | cons second others =>
      obtain rfl : second = '\'' := Option.some.inj isQuote
      have unread := readQuoted_eq_none_of_quote read
      rw [scan, if_neg (by decide)] at classified
      apply classified _ List.mem_cons_self
      simp [readLexeme, isWordStart, unread, Lexeme.toToken]

/-- A text of classified tokens keeps them when a text is put behind it that
begins at a boundary, and the other text has its own. -/
theorem scan_append_of_classified {offset : Nat} {text more : List Char}
    (classified : AreClassified (scan offset text))
    (boundary : isBoundary more) :
    scan offset (text ++ more) =
      scan offset text ++ scan (offset + text.length) more := by
  fun_induction scan offset text with
  | case1 => rfl
  | case2 offset first rest isBlank ih =>
      rw [List.cons_append, scan_blank isBlank, ih classified, List.length_cons,
        Nat.add_assoc, Nat.add_comm 1]
  | case3 offset first rest notBlank step ih =>
      obtain ⟨stepClassified, behindClassified⟩ :=
        List.forall_mem_cons.mp classified
      have closed (isString : step.1.kind = .string) : step.2.head? ≠ some '\'' :=
        head?_ne_quote_of_classified isString behindClassified
      have taken : readLexeme first rest = (step.1, step.2) := rfl
      have reads := readLexeme_append_seam taken stepClassified closed boundary
      have length := congrArg List.length (readLexeme_append first rest)
      have place : offset + step.1.spelling.length + step.2.length =
          offset + (first :: rest).length := by
        rw [← length, List.length_append, Nat.add_assoc]
      rw [List.cons_append, scan, if_neg notBlank, reads, List.cons_append,
        ← place, ← ih behindClassified]

end Criteria
