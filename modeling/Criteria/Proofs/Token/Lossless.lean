import Criteria.Proofs.Token.Lexical
import Criteria.Token.Layout

/-!
# Nothing of an input is lost

An input is made of the spellings of its tokens with blanks around them, and
the offset of a token counts the characters in front of its spelling.  The
scan establishes this one step at a time; what is said of the offsets and of
the other characters follows from it alone.
-/

namespace Criteria

/-- The text, which begins at an offset of the input, is made of the tokens and
of the given gaps, and the offset of every token is where its spelling begins. -/
structure LaidOut (offset : Nat) (text : List Char) (tokens : List Token)
    (lead : List Char) (gaps : List (List Char)) : Prop where
  count : gaps.length = tokens.length
  leadIsGap : isGap lead
  areGaps : ∀ gap ∈ gaps, isGap gap
  spelled : ∀ token ∈ tokens, token.spelling ≠ []
  whole : text = layOut lead tokens gaps
  placed : ∀ before token after, tokens = before ++ token :: after →
    token.offset = offset + (layOut lead before gaps).length

theorem layOut_nil (lead : List Char) (gaps : List (List Char)) :
    layOut lead [] gaps = lead := by
  simp [layOut, weave]

theorem layOut_cons (lead gap : List Char) (token : Token) (tokens : List Token)
    (gaps : List (List Char)) :
    layOut lead (token :: tokens) (gap :: gaps) =
      lead ++ (token.spelling ++ layOut gap tokens gaps) := by
  simp [layOut, weave]

theorem layOut_cons_lead (first : Char) (lead : List Char) (tokens : List Token)
    (gaps : List (List Char)) :
    layOut (first :: lead) tokens gaps = first :: layOut lead tokens gaps :=
  rfl

theorem Lexeme.spelling_toToken (lexeme : Lexeme) (offset : Nat) :
    (lexeme.toToken offset).spelling = lexeme.spelling := by
  simp [Token.spelling, Lexeme.toToken, Lexeme.spelling]

namespace LaidOut

variable {offset : Nat} {text lead gap : List Char} {tokens : List Token}
  {gaps : List (List Char)} {token : Token}

theorem nil (offset : Nat) : LaidOut offset [] [] [] [] where
  count := rfl
  leadIsGap := rfl
  areGaps := by simp
  spelled := by simp
  whole := by rw [layOut_nil]
  placed := by simp

theorem blank {first : Char} (isBlank : isBlank first)
    (laidOut : LaidOut (offset + 1) text tokens lead gaps) :
    LaidOut offset (first :: text) tokens (first :: lead) gaps where
  count := laidOut.count
  leadIsGap := by
    have isGap : lead.all Criteria.isBlank := laidOut.leadIsGap
    simp [Criteria.isGap, isBlank, isGap]
  areGaps := laidOut.areGaps
  spelled := laidOut.spelled
  whole := by rw [layOut_cons_lead, ← laidOut.whole]
  placed := by
    intro before token after split
    rw [laidOut.placed before token after split, layOut_cons_lead,
      List.length_cons]
    omega

theorem lexeme (isSpelled : token.spelling ≠ []) (atStart : token.offset = offset)
    (laidOut :
      LaidOut (offset + token.spelling.length) text tokens lead gaps) :
    LaidOut offset (token.spelling ++ text) (token :: tokens) []
      (lead :: gaps) where
  count := congrArg Nat.succ laidOut.count
  leadIsGap := rfl
  areGaps := List.forall_mem_cons.mpr ⟨laidOut.leadIsGap, laidOut.areGaps⟩
  spelled := List.forall_mem_cons.mpr ⟨isSpelled, laidOut.spelled⟩
  whole := by rw [layOut_cons, ← laidOut.whole, List.nil_append]
  placed := by
    intro before other after split
    cases before with
    | nil =>
        obtain ⟨rfl, -⟩ := List.cons.inj split
        rw [layOut_nil, atStart, List.length_nil, Nat.add_zero]
    | cons first others =>
        obtain ⟨rfl, behind⟩ := List.cons.inj split
        rw [laidOut.placed others other after behind, layOut_cons,
          List.nil_append, List.length_append]
        omega

/-- What stands behind the first token is laid out in the same way. -/
theorem tail
    (laidOut : LaidOut offset text (token :: tokens) lead (gap :: gaps)) :
    LaidOut (offset + lead.length + token.spelling.length)
      (layOut gap tokens gaps) tokens gap gaps where
  count := Nat.succ.inj laidOut.count
  leadIsGap := laidOut.areGaps gap List.mem_cons_self
  areGaps := fun other member =>
    laidOut.areGaps other (List.mem_cons_of_mem _ member)
  spelled := (List.forall_mem_cons.mp laidOut.spelled).2
  whole := rfl
  placed := by
    intro before other after split
    have behind := laidOut.placed (token :: before) other after (by rw [split]; rfl)
    rw [behind, layOut_cons, List.length_append, List.length_append]
    omega

theorem offset_head
    (laidOut : LaidOut offset text (token :: tokens) lead gaps) :
    token.offset = offset + lead.length := by
  rw [laidOut.placed [] token tokens rfl, layOut_nil]

/-- Every spelling lies within the text. -/
theorem within (laidOut : LaidOut offset text tokens lead gaps) :
    ∀ token ∈ tokens, offset + lead.length ≤ token.offset ∧
      token.offset + token.spelling.length ≤ offset + text.length := by
  induction tokens generalizing offset text lead gaps with
  | nil => simp
  | cons first others ih =>
      cases gaps with
      | nil => cases laidOut.count
      | cons gap gaps =>
          have size : text.length = lead.length +
              (first.spelling.length + (layOut gap others gaps).length) := by
            rw [laidOut.whole, layOut_cons, List.length_append,
              List.length_append]
          intro token member
          rcases List.mem_cons.mp member with rfl | later
          · rw [laidOut.offset_head]
            omega
          · have inside := ih laidOut.tail token later
            omega

theorem offsets_increase (laidOut : LaidOut offset text tokens lead gaps) :
    tokens.Pairwise fun first second => first.offset < second.offset := by
  induction tokens generalizing offset text lead gaps with
  | nil => exact .nil
  | cons first others ih =>
      cases gaps with
      | nil => cases laidOut.count
      | cons gap gaps =>
          apply List.pairwise_cons.mpr
          constructor
          · intro token member
            have nonempty := List.length_pos_iff.mpr
              (laidOut.spelled first List.mem_cons_self)
            have behind := (laidOut.tail.within token member).1
            rw [laidOut.offset_head]
            omega
          · exact ih laidOut.tail

/-- Every token takes at least one character. -/
theorem length_le (laidOut : LaidOut offset text tokens lead gaps) :
    tokens.length ≤ text.length := by
  induction tokens generalizing offset text lead gaps with
  | nil => exact Nat.zero_le _
  | cons first others ih =>
      cases gaps with
      | nil => cases laidOut.count
      | cons gap gaps =>
          have nonempty := List.length_pos_iff.mpr
            (laidOut.spelled first List.mem_cons_self)
          have fewer := ih laidOut.tail
          rw [laidOut.whole, layOut_cons, List.length_append, List.length_append,
            List.length_cons]
          omega

theorem offset_lt (laidOut : LaidOut offset text tokens lead gaps) :
    ∀ token ∈ tokens, token.offset < offset + text.length := by
  intro token member
  have nonempty := List.length_pos_iff.mpr (laidOut.spelled token member)
  have inside := (laidOut.within token member).2
  omega

theorem filter_gap (isGap : isGap gap) :
    gap.filter (fun character => !isBlank character) = [] := by
  apply List.filter_eq_nil_iff.mpr
  intro character member
  have blank := List.all_eq_true.mp isGap character member
  simp [blank]

/-- Outside the gaps there is nothing but the spellings. -/
theorem filter_text (laidOut : LaidOut offset text tokens lead gaps) :
    text.filter (fun character => !isBlank character) =
      (tokens.flatMap Token.spelling).filter
        fun character => !isBlank character := by
  induction tokens generalizing offset text lead gaps with
  | nil => rw [laidOut.whole, layOut_nil, filter_gap laidOut.leadIsGap]; rfl
  | cons first others ih =>
      cases gaps with
      | nil => cases laidOut.count
      | cons gap gaps =>
          rw [laidOut.whole, layOut_cons, List.filter_append,
            filter_gap laidOut.leadIsGap, List.nil_append, List.filter_append,
            ih laidOut.tail, List.flatMap_cons, List.filter_append]

end LaidOut

/-- What the scan takes from a text is laid out in it. -/
theorem laidOut_scan (offset : Nat) (text : List Char) :
    ∃ lead gaps, LaidOut offset text (scan offset text) lead gaps := by
  fun_induction scan offset text with
  | case1 offset => exact ⟨[], [], .nil offset⟩
  | case2 offset first rest isBlank ih =>
      obtain ⟨lead, gaps, laidOut⟩ := ih
      exact ⟨first :: lead, gaps, laidOut.blank isBlank⟩
  | case3 offset first rest notBlank step ih =>
      obtain ⟨lead, gaps, laidOut⟩ := ih
      have spelling := Lexeme.spelling_toToken step.1 offset
      refine ⟨[], lead :: gaps, ?_⟩
      rw [← readLexeme_append first rest, ← spelling]
      apply LaidOut.lexeme
      · rw [spelling]
        exact spelling_readLexeme_ne_nil first rest
      · rfl
      · rwa [spelling]

theorem Lexical.kind_ne_endOfInput {lexeme : Lexeme} (lexical : Lexical lexeme) :
    lexeme.kind ≠ .endOfInput := by
  cases lexical with
  | @word text form =>
      intro same
      have wordLike := Kind.isWordLike_ofWord (String.ofList text)
      have isEnd : Kind.ofWord (String.ofList text) = .endOfInput := same
      rw [isEnd] at wordLike
      cases wordLike
  | symbol isSymbol =>
      have inside : symbols.all fun symbol =>
          Kind.ofSymbol symbol ≠ .endOfInput := by decide
      simpa using List.all_eq_true.mp inside _ isSymbol
  | integer | float | manyPoints | string | numbered | named => nofun

theorem Token.IsLexical.kind_ne_endOfInput {token : Token}
    (lexical : token.IsLexical) : token.kind ≠ .endOfInput := by
  rcases lexical with unclassified | isLexical
  · rw [unclassified]
    decide
  · exact isLexical.kind_ne_endOfInput

/-- Tokenizing loses nothing.  The input is the spellings of its tokens, none of
them empty, with nothing but blanks around them, and the offset of a token is
the number of characters before its spelling.  So the offsets increase and stay
within the input, the characters that are no blanks are those of the spellings,
and no token stands for the end of the input. -/
theorem tokenize_lossless (input : String) :
    (∃ lead gaps, LaidOut 0 input.toList (tokenize input) lead gaps) ∧
    ((tokenize input).Pairwise fun first second =>
      first.offset < second.offset) ∧
    (∀ token ∈ tokenize input, token.offset < input.length) ∧
    (input.toList.filter fun character => !isBlank character) =
      ((tokenize input).flatMap Token.spelling).filter
        (fun character => !isBlank character) ∧
    ∀ token ∈ tokenize input, token.kind ≠ .endOfInput := by
  obtain ⟨lead, gaps, laidOut⟩ := laidOut_scan 0 input.toList
  refine ⟨⟨lead, gaps, laidOut⟩, laidOut.offsets_increase, ?_,
    laidOut.filter_text, ?_⟩
  · intro token member
    have inside := laidOut.offset_lt token member
    rwa [Nat.zero_add, String.length_toList] at inside
  · intro token member
    exact (areLexical_tokenize input token member).kind_ne_endOfInput

end Criteria
