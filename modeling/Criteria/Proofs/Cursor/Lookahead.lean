import Criteria.Proofs.Session.Reading
import Criteria.Walk.Basic

/-!
# Looking ahead leaves no trace

A cursor that looks ahead sees the tokens behind its lookahead, one after the
other.  A scout therefore decides as the dispatch of its name does on the
pending tokens, and afterwards the cursor is where it was.
-/

namespace Criteria

namespace Cursor

variable {cursor : Cursor}

/-- Nothing was looked at, a cursor without lookahead has no token left, and no
token stands for the end of the input. -/
structure Live (cursor : Cursor) : Prop where
  peeked : cursor.peeked = 0
  atEnd : cursor.lookahead = none → cursor.upcoming = []
  noEnd : ∀ token ∈ cursor.tokens.toList, token.kind ≠ .endOfInput

namespace Live

theorem ahead (live : cursor.Live) : cursor.ahead = cursor.upcoming := by
  rw [Cursor.ahead, live.peeked, Nat.add_zero, upcoming]

theorem resetPeek (live : cursor.Live) : cursor.resetPeek = cursor := by
  rw [Cursor.resetPeek, ← live.peeked]

theorem head_pending (live : cursor.Live) :
    cursor.pending.head? = cursor.lookahead := by
  cases found : cursor.lookahead with
  | some token => simp [pending, found]
  | none => simp [pending, found, live.atEnd found]

theorem tail_pending (live : cursor.Live) :
    cursor.pending.tail = cursor.upcoming := by
  cases found : cursor.lookahead with
  | some token => simp [pending, found]
  | none => simp [pending, found, live.atEnd found]

theorem lookaheadKind (live : cursor.Live) :
    cursor.lookaheadKind = Token.headKind cursor.pending := by
  rw [Cursor.lookaheadKind, ← live.head_pending]
  cases cursor.pending <;> rfl

theorem noEnd_upcoming (live : cursor.Live) :
    ∀ token ∈ cursor.upcoming, token.kind ≠ .endOfInput :=
  fun token member => live.noEnd token (List.mem_of_mem_drop member)

end Live

theorem ofSeen_head? (tokens : List Token) :
    Kind.ofSeen tokens.head? = Token.headKind tokens := by
  cases tokens <;> rfl

theorem glimpse_eq (cursor : Cursor) : cursor.glimpse = cursor.ahead.head? := by
  rw [glimpse, ahead, List.head?_drop, Array.getElem?_toList]

theorem peek_fst (cursor : Cursor) : cursor.peek.1 = cursor.ahead.head? := by
  rw [← glimpse_eq, peek]
  cases cursor.glimpse <;> rfl

theorem ahead_peek (cursor : Cursor) : cursor.peek.2.ahead = cursor.ahead.tail := by
  cases present : cursor.glimpse with
  | some token => simp [peek, present, ahead, List.tail_drop, Nat.add_assoc]
  | none =>
      rw [glimpse_eq, List.head?_eq_none_iff] at present
      simp [peek, glimpse_eq, present]

theorem resetPeek_peek (cursor : Cursor) :
    cursor.peek.2.resetPeek = cursor.resetPeek := by
  rw [peek]
  cases cursor.glimpse <;> rfl

/-- From the cursor the tokens were seen, the first of them last, and nothing
but the looks was changed. -/
structure Sees (cursor : Cursor) (tokens : List Token) (step : Kind × Cursor) :
    Prop where
  kind : step.1 = Token.headKind tokens
  ahead : step.2.ahead = tokens.tail
  rewinds : step.2.resetPeek = cursor.resetPeek

theorem sees_peekKind (cursor : Cursor) :
    cursor.Sees cursor.ahead cursor.peekKind where
  kind := by rw [peekKind, peek_fst, ofSeen_head?]
  ahead := ahead_peek cursor
  rewinds := resetPeek_peek cursor

theorem kindBeyond_cons (unmatched : Nat) (token : Token) (rest : List Token) :
    kindBeyond (unmatched + 1) (token :: rest) =
      kindBeyond (countUnmatched (unmatched + 1) token.kind) rest := by
  rw [kindBeyond]
  cases token.kind <;> rfl

theorem resetPeek_seekBeyond (cursor : Cursor) (unmatched : Nat) (kind : Kind) :
    (cursor.seekBeyond unmatched kind).2.resetPeek = cursor.resetPeek := by
  fun_induction seekBeyond cursor unmatched kind with
  | case1 => rfl
  | case2 cursor unmatched kind going ih => exact ih.trans (resetPeek_peek cursor)

/-- The search for a closing parenthesis finds what lies beyond it. -/
theorem seekBeyond_fst {tokens : List Token} {step : Kind × Cursor}
    (sees : cursor.Sees tokens step) (unmatched : Nat)
    (noEnd : ∀ token ∈ tokens, token.kind ≠ .endOfInput) :
    (step.2.seekBeyond unmatched step.1).1 = kindBeyond unmatched tokens := by
  induction tokens generalizing step unmatched with
  | nil =>
      have atEnd : step.1 = .endOfInput := sees.kind
      rw [seekBeyond, if_pos (.inr atEnd), atEnd]
      cases unmatched <;> rfl
  | cons token rest ih =>
      obtain ⟨inside, others⟩ := List.forall_mem_cons.mp noEnd
      have kind : step.1 = token.kind := sees.kind
      cases unmatched with
      | zero =>
          rw [seekBeyond, if_pos (.inl rfl)]
          exact kind
      | succ unmatched =>
          -- The token seen last is counted before the next one is looked at.
          have going : ¬ (unmatched + 1 = 0 ∨ step.1 = .endOfInput) := by
            simp [kind, inside]
          have next : cursor.Sees rest step.2.peekKind := by
            have seen := sees_peekKind step.2
            rw [sees.ahead] at seen
            exact ⟨seen.kind, seen.ahead, seen.rewinds.trans sees.rewinds⟩
          rw [seekBeyond, if_neg going, kindBeyond_cons, ← kind]
          exact ih next _ others

theorem kindBeyondParenthesis_snd (cursor : Cursor) :
    cursor.kindBeyondParenthesis.2 = cursor.resetPeek :=
  (resetPeek_seekBeyond _ _ _).trans (resetPeek_peek cursor)

theorem kindBeyondParenthesis_eq (live : cursor.Live) :
    cursor.kindBeyondParenthesis = (kindBeyond 1 cursor.pending.tail, cursor) := by
  have seen := sees_peekKind cursor
  rw [live.ahead] at seen
  have rewound := cursor.kindBeyondParenthesis_snd
  rw [live.resetPeek] at rewound
  rw [live.tail_pending]
  exact Prod.ext (seekBeyond_fst seen 1 live.noEnd_upcoming) rewound

theorem skipPoints_eq (tokens : List Token) :
    skipPoints tokens =
      if isSeenPoint tokens.head? then skipPoints tokens.tail.tail else tokens := by
  cases tokens with
  | nil => rfl
  | cons token others =>
      cases others with
      | nil => by_cases isPoint : token.text = "." <;>
          simp [skipPoints, isSeenPoint, isPoint]
      | cons next rest => by_cases isPoint : token.text = "." <;>
          simp [skipPoints, isSeenPoint, isPoint]

theorem sees_passPoints (cursor : Cursor) :
    cursor.Sees (skipPoints cursor.ahead) cursor.passPoints := by
  fun_induction passPoints cursor with
  | case1 cursor isPoint ih =>
      have points : skipPoints cursor.ahead =
          skipPoints cursor.peek.2.peek.2.ahead := by
        rw [ahead_peek, ahead_peek, skipPoints_eq, ← peek_fst, if_pos isPoint]
      rw [points]
      have rewound : cursor.peek.2.peek.2.resetPeek = cursor.resetPeek := by
        rw [resetPeek_peek, resetPeek_peek]
      exact ⟨ih.kind, ih.ahead, ih.rewinds.trans rewound⟩
  | case2 cursor noPoint =>
      rw [skipPoints_eq, ← peek_fst, if_neg noPoint]
      exact sees_peekKind cursor

theorem resetPeek_passNot (kind : Kind) (cursor : Cursor) :
    (passNot kind cursor).2.resetPeek = cursor.resetPeek := by
  unfold passNot
  split
  · exact resetPeek_peek cursor
  · rfl

theorem passNot_eq {tokens : List Token} {step : Kind × Cursor}
    (sees : cursor.Sees tokens step) :
    (passNot step.1 step.2).1 = (behindNot tokens).1 ∧
      (passNot step.1 step.2).2.ahead = (behindNot tokens).2 := by
  obtain ⟨kind, ahead, -⟩ := sees
  cases tokens with
  | nil =>
      rw [passNot, if_neg (by simp [kind, Token.headKind])]
      exact ⟨kind, ahead⟩
  | cons token rest =>
      have kind : step.1 = token.kind := kind
      have ahead : step.2.ahead = rest := ahead
      by_cases isNot : token.kind = .notWord
      · have further := sees_peekKind step.2
        rw [ahead] at further
        rw [passNot, if_pos (kind.trans isNot), behindNot, if_pos isNot]
        exact ⟨further.kind, further.ahead⟩
      · rw [passNot, if_neg (kind ▸ isNot), behindNot, if_neg isNot]
        exact ⟨kind, ahead⟩

/-- Looking for the form leaves a cursor where it was that has looked at nothing,
when the first look behind the subject only looks. -/
theorem predicateForm_snd {first : Cursor → Kind × Cursor}
    (unseen : cursor.resetPeek = cursor)
    (looks : (first cursor).2.resetPeek = cursor.resetPeek) :
    (cursor.predicateForm first).2 = cursor := by
  unfold predicateForm
  dsimp only
  generalize (if cursor.lookaheadKind = .notWord then Kind.ofSeen cursor.glimpse
    else cursor.lookaheadKind) = leading
  by_cases isIdentifier : leading = .identifier
  · rw [if_pos isIdentifier]
    dsimp only
    rw [resetPeek_passNot, peekKind, resetPeek_peek, resetPeek_passNot, looks,
      unseen]
  · rw [if_neg isIdentifier]

/-- The form is chosen as it is from the pending tokens, when the first look
behind the subject passes over the tokens that are skipped. -/
theorem predicateForm_eq {skip : List Token → List Token}
    {first : Cursor → Kind × Cursor} (live : cursor.Live)
    (sees : cursor.Sees (skip cursor.ahead) (first cursor)) :
    cursor.predicateForm first = (formOf skip cursor.pending, cursor) := by
  refine Prod.ext ?_ (predicateForm_snd live.resetPeek sees.rewinds)
  have leading : Kind.ofSeen cursor.glimpse =
      Token.headKind cursor.pending.tail := by
    rw [glimpse_eq, live.ahead, ofSeen_head?, live.tail_pending]
  rw [live.ahead, ← live.tail_pending] at sees
  obtain ⟨word, atWord⟩ := passNot_eq sees
  have seesAfter := sees_peekKind (passNot (first cursor).1 (first cursor).2).2
  rw [atWord] at seesAfter
  obtain ⟨after, -⟩ := passNot_eq seesAfter
  unfold predicateForm formOf
  simp only [leading, live.lookaheadKind, word, after]
  generalize (if Token.headKind cursor.pending = .notWord then
    Token.headKind cursor.pending.tail else Token.headKind cursor.pending) = kind
  by_cases isIdentifier : kind = .identifier
  · rw [if_pos isIdentifier, if_pos isIdentifier]
  · rw [if_neg isIdentifier, if_neg isIdentifier]

end Cursor

/-- A scout that decides as the dispatch does, and leaves no trace. -/
structure Scout.Follows (guide : Scout) (dispatch : Dispatch) : Prop where
  opensGroup : ∀ cursor : Cursor, cursor.Live →
    guide.opensGroup cursor = (dispatch.opensGroup cursor.pending, cursor)
  form : ∀ cursor : Cursor, cursor.Live →
    guide.form cursor = (dispatch.form cursor.pending, cursor)

theorem Scout.follows_standard : Scout.standard.Follows .standard where
  opensGroup cursor live := by
    simp [standard, Dispatch.standard, Cursor.kindBeyondParenthesis_eq live]
  form cursor live := Cursor.predicateForm_eq live (Cursor.sees_passPoints cursor)

theorem Scout.follows_plain : Scout.plain.Follows .plain where
  opensGroup _ _ := rfl
  form cursor live :=
    @Cursor.predicateForm_eq cursor id _ live (Cursor.sees_peekKind cursor)

end Criteria
