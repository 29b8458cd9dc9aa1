import Criteria.Proofs.Rule.Placeless
import Criteria.Proofs.Token.Lossless
import Criteria.Proofs.Token.Seam

/-!
# Texts laid out anew

The spellings of the tokens of a text can be written with other blanks around
them, and they are scanned as the same tokens.  A lexeme of the grammar is taken
back because every gap behind it is a boundary.  A stray character stays stray
since no lexeme ends before a boundary that did not begin at its old place; for
a quote this holds because no quote comes after a stray one, and blanks bring
none in.
-/

namespace Criteria

/-- Gaps for so many tokens: blanks in front of them and behind each of them,
and at least one blank between two tokens. -/
structure Separating (tokenCount : Nat) (lead : List Char)
    (gaps : List (List Char)) : Prop where
  count : gaps.length = tokenCount
  leadIsGap : isGap lead
  areGaps : ∀ gap ∈ gaps, isGap gap
  between : ∀ gap ∈ gaps.dropLast, gap ≠ []

theorem quote_not_mem_of_isGap {gap : List Char} (blanks : isGap gap) :
    '\'' ∉ gap := by
  intro member
  have isBlankQuote := List.all_eq_true.mp blanks _ member
  exact absurd isBlankQuote (by decide)

theorem isBoundary_of_isGap {gap rest : List Char} (blanks : isGap gap)
    (separated : gap = [] → rest = []) : isBoundary (gap ++ rest) := by
  cases gap with
  | nil =>
      rw [separated rfl]
      rfl
  | cons first others =>
      have isFirst := List.all_eq_true.mp blanks first List.mem_cons_self
      simp [isBoundary, isFirst]

namespace Separating

variable {count : Nat} {lead gap : List Char} {gaps : List (List Char)}

/-- The gap behind the first token is the lead of the others. -/
theorem tail (separating : Separating (count + 1) lead (gap :: gaps)) :
    Separating count gap gaps where
  count := Nat.succ.inj separating.count
  leadIsGap := separating.areGaps gap List.mem_cons_self
  areGaps := fun other member =>
    separating.areGaps other (List.mem_cons_of_mem _ member)
  between := by
    intro other member
    cases gaps with
    | nil => cases member
    | cons second others =>
        exact separating.between other (List.mem_cons_of_mem _ member)

/-- What is laid out behind a token begins at a boundary. -/
theorem boundary {tokens : List Token}
    (separating : Separating (tokens.length + 1) lead (gap :: gaps)) :
    isBoundary (layOut gap tokens gaps) := by
  apply isBoundary_of_isGap separating.tail.leadIsGap
  intro empty
  cases gaps with
  | nil => simp
  | cons second others =>
      exact (separating.between gap List.mem_cons_self empty).elim

end Separating

/-- A character of a laid out text is one of a gap or of a spelling. -/
theorem mem_layOut {character : Char} {lead : List Char} {tokens : List Token}
    {gaps : List (List Char)} (member : character ∈ layOut lead tokens gaps) :
    character ∈ lead ∨ (∃ token ∈ tokens, character ∈ token.spelling) ∨
      ∃ gap ∈ gaps, character ∈ gap := by
  unfold layOut weave at member
  rcases List.mem_append.mp member with inLead | inPieces
  · exact .inl inLead
  right
  obtain ⟨⟨spelling, gap⟩, isPiece, inPiece⟩ := List.mem_flatMap.mp inPieces
  obtain ⟨isSpelling, isGap⟩ := List.of_mem_zip isPiece
  rcases List.mem_append.mp inPiece with inSpelling | inGap
  · left
    obtain ⟨token, isToken, rfl⟩ := List.mem_map.mp isSpelling
    exact ⟨token, isToken, inSpelling⟩
  · exact .inr ⟨gap, isGap, inGap⟩

/-- A character of a spelling is one of the text that was scanned. -/
theorem mem_of_mem_spelling {character : Char} {offset : Nat} {text : List Char}
    {token : Token} (isToken : token ∈ scan offset text)
    (member : character ∈ token.spelling) : character ∈ text := by
  fun_induction scan offset text with
  | case1 => cases isToken
  | case2 offset first rest isBlank ih => exact List.mem_cons_of_mem _ (ih isToken)
  | case3 offset first rest notBlank step ih =>
      rw [← readLexeme_append first rest]
      rcases List.mem_cons.mp isToken with rfl | later
      · rw [Lexeme.spelling_toToken] at member
        exact List.mem_append_left _ member
      · exact List.mem_append_right _ (ih later)

theorem exists_readQuoted_of_mem {input : List Char} (member : '\'' ∈ input) :
    ∃ content after, readQuoted input = some (content, after) := by
  fun_induction readQuoted input with
  | case1 => cases member
  | case2 | case3 | case4 | case5 => exact ⟨_, _, rfl⟩
  | case6 character rest noPair noQuote unread ih =>
      rcases List.mem_cons.mp member with isQuote | later
      · exact (noQuote isQuote.symm).elim
      · obtain ⟨content, after, read⟩ := ih later
        rw [read] at unread
        cases unread

/-- Behind a quote at which no lexeme begins there is no further quote. -/
theorem quote_not_mem_of_stray {rest : List Char}
    (noLexeme : ∀ lexeme : Lexeme, ¬ lexeme.Begins ('\'' :: rest)) :
    '\'' ∉ rest := by
  intro member
  obtain ⟨content, after, read⟩ := exists_readQuoted_of_mem member
  apply noLexeme ⟨.string, content⟩
  refine ⟨.string content, after, ?_⟩
  rw [eq_of_readQuoted read]
  simp [Lexeme.spelling, Kind.spell, quote]

/-- A stray character is stray in front of any other text that begins at a
boundary and brings in no quote. -/
theorem readLexeme_of_stray_again {first : Char} {rest more : List Char}
    (noLexeme : ∀ lexeme : Lexeme, ¬ lexeme.Begins (first :: rest))
    (boundary : isBoundary more) (noNewQuote : '\'' ∈ more → '\'' ∈ rest) :
    readLexeme first more = (⟨.unclassified, [first]⟩, more) := by
  apply readLexeme_of_stray
  intro lexeme begins
  have begun : lexeme.Begins ([first] ++ more) := begins
  by_cases within : lexeme.spelling <+: [first]
  · exact noLexeme lexeme ⟨begins.1, within.trans (List.prefix_append [first] rest)⟩
  -- Only a string reaches beyond the first character, and it brings its quotes.
  · have isString := begun.string_of_not_prefix (by simp) boundary within
    obtain ⟨-, after, split⟩ := begins
    rw [Lexeme.spelling_of_isString isString, quote, List.cons_append,
      List.append_assoc] at split
    obtain ⟨rfl, remainder⟩ := List.cons.inj split
    have closing : '\'' ∈ more := by
      rw [← remainder]
      simp
    exact quote_not_mem_of_stray noLexeme (noNewQuote closing)

/-- What a step of the scan took is taken again from in front of another text
that begins at a boundary and brings in no quote. -/
theorem scan_spelling_again {first : Char} {rest behind : List Char}
    (notBlank : isBlank first = false) (boundary : isBoundary behind)
    (noNewQuote : '\'' ∈ behind → '\'' ∈ (readLexeme first rest).2) (place : Nat) :
    scan place ((readLexeme first rest).1.spelling ++ behind) =
      (readLexeme first rest).1.toToken place ::
        scan (place + (readLexeme first rest).1.spelling.length) behind := by
  rcases isLongest_or_stray first rest with longest | ⟨-, noLexeme⟩
  · exact scan_lexeme longest.1.1 boundary place
  · have taken := readLexeme_of_stray noLexeme
    rw [taken] at noNewQuote
    have again := readLexeme_of_stray_again noLexeme boundary noNewQuote
    have spelled : Lexeme.spelling ⟨.unclassified, [first]⟩ = [first] := rfl
    rw [taken, spelled, List.singleton_append, scan, if_neg (by simp [notBlank]),
      again]
    rfl

theorem scan_gap {gap : List Char} (blanks : isGap gap) (offset : Nat)
    (rest : List Char) :
    scan offset (gap ++ rest) = scan (offset + gap.length) rest := by
  induction gap generalizing offset with
  | nil => rfl
  | cons first others ih =>
      obtain ⟨isFirst, areOthers⟩ := Bool.and_eq_true_iff.mp blanks
      rw [List.cons_append, scan_blank isFirst, ih areOthers, List.length_cons,
        Nat.add_assoc, Nat.add_comm 1]

/-- Blanks in front of what is laid out without a lead are its lead. -/
theorem LaidOut.led {offset : Nat} {text lead : List Char} {tokens : List Token}
    {gaps : List (List Char)} (blanks : isGap lead)
    (laidOut : LaidOut (offset + lead.length) text tokens [] gaps) :
    LaidOut offset (lead ++ text) tokens lead gaps := by
  induction lead generalizing offset with
  | nil => exact laidOut
  | cons first others ih =>
      obtain ⟨isFirst, areOthers⟩ := Bool.and_eq_true_iff.mp blanks
      rw [List.length_cons, Nat.add_comm others.length, ← Nat.add_assoc] at laidOut
      exact (ih areOthers laidOut).blank isFirst

/-- The tokens of a text that is laid out anew are the tokens laid out, in the
places that the gaps give them. -/
theorem scan_layOut {offset : Nat} {text lead : List Char}
    {gaps : List (List Char)} (place : Nat)
    (separating : Separating (scan offset text).length lead gaps) :
    AreAlike (scan offset text)
        (scan place (layOut lead (scan offset text) gaps)) ∧
      LaidOut place (layOut lead (scan offset text) gaps)
        (scan place (layOut lead (scan offset text) gaps)) lead gaps := by
  fun_induction scan offset text generalizing place lead gaps with
  | case1 offset =>
      obtain rfl := List.eq_nil_of_length_eq_zero separating.count
      have blanks := separating.leadIsGap
      have laidOut := LaidOut.led blanks (.nil (place + lead.length))
      have nothing := scan_gap blanks place []
      rw [List.append_nil] at laidOut nothing
      rw [scan] at nothing
      rw [layOut_nil, nothing]
      exact ⟨.nil, laidOut⟩
  | case2 offset first rest isBlank ih => exact ih place separating
  | case3 offset first rest notBlank step =>
      rename_i ih
      cases gaps with
      | nil => cases separating.count
      | cons gap gaps =>
          have boundary := separating.boundary
          have blanks := separating.tail.leadIsGap
          -- A quote that is laid out behind this lexeme stood behind it before.
          have noNewQuote
              (member : '\'' ∈ layOut gap
                (scan (offset + step.1.spelling.length) step.2) gaps) :
              '\'' ∈ step.2 := by
            rcases mem_layOut member with inLead | ⟨token, isToken, inToken⟩ |
              ⟨other, isGap, inGap⟩
            · exact (quote_not_mem_of_isGap blanks inLead).elim
            · exact mem_of_mem_spelling isToken inToken
            · have others := separating.tail.areGaps other isGap
              exact (quote_not_mem_of_isGap others inGap).elim
          obtain ⟨alike, laidOut⟩ :=
            ih (place + lead.length + step.1.spelling.length) separating.tail
          have noBlank : isBlank first = false := by simpa using notBlank
          have again := scan_spelling_again noBlank boundary noNewQuote
            (place + lead.length)
          rw [layOut_cons, Lexeme.spelling_toToken, scan_gap separating.leadIsGap,
            again]
          refine ⟨.cons ⟨rfl, rfl⟩ alike, .led separating.leadIsGap ?_⟩
          let token := step.1.toToken (place + lead.length)
          have spelling : token.spelling = step.1.spelling :=
            Lexeme.spelling_toToken step.1 (place + lead.length)
          have isSpelled : token.spelling ≠ [] := by
            rw [spelling]
            exact spelling_readLexeme_ne_nil first rest
          have atStart : token.offset = place + lead.length := rfl
          rw [← spelling] at laidOut ⊢
          exact laidOut.lexeme isSpelled atStart

/-- The lexemes of an input can be written with other blanks around them: the
tokens keep their kinds and texts, and they stand where the gaps put them. -/
theorem tokenize_layOut {expression : String} {lead : List Char}
    {gaps : List (List Char)}
    (separating : Separating (tokenize expression).length lead gaps) :
    let written := String.ofList (layOut lead (tokenize expression) gaps)
    AreAlike (tokenize expression) (tokenize written) ∧
      LaidOut 0 written.toList (tokenize written) lead gaps := by
  intro written
  have isWritten : written.toList = layOut lead (tokenize expression) gaps :=
    String.toList_ofList
  rw [tokenize, tokenize, isWritten]
  exact scan_layOut 0 separating

end Criteria
