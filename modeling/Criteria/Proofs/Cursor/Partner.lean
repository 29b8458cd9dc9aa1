import Criteria.Proofs.Cursor.Lookahead
import Criteria.Proofs.Token.Lossless
import Criteria.Session.Move
import Criteria.Token.Partner

/-!
# Looking behind the matching parenthesis

The search behind an opening parenthesis stops at the first token up to which
the parentheses come in equal numbers, and tells the kind of the token behind
it.  Wherever moves have led a session, the search leaves it as it was.
-/

namespace Criteria

namespace Token

/-- Up to the distance, the closing parentheses outnumber the opening ones by the
number that is unmatched. -/
def Fills (unmatched : Nat) (tokens : List Token) (distance : Nat) : Prop :=
  countClosing (tokens.take distance) =
    countOpening (tokens.take distance) + unmatched

theorem fills_zero {unmatched : Nat} {tokens : List Token} :
    Fills unmatched tokens 0 ↔ unmatched = 0 := by
  simp [Fills, countClosing, countOpening, eq_comm]

/-- What is missing in front of a token is missing behind it as it is counted. -/
theorem fills_cons {unmatched : Nat} {token : Token} {rest : List Token}
    {distance : Nat} :
    Fills (unmatched + 1) (token :: rest) (distance + 1) ↔
      Fills (Cursor.countUnmatched (unmatched + 1) token.kind) rest distance := by
  unfold Fills countClosing countOpening
  rw [List.take_succ_cons, List.countP_cons, List.countP_cons]
  cases token.kind <;> simp [Cursor.countUnmatched] <;> omega

/-- The search ends behind the first place where nothing is missing. -/
theorem kindBeyond_of_fills {unmatched : Nat} {tokens : List Token}
    {distance : Nat} (fills : Fills unmatched tokens distance)
    (first : ∀ shorter < distance, ¬ Fills unmatched tokens shorter) :
    kindBeyond unmatched tokens = headKind (tokens.drop distance) := by
  induction tokens generalizing unmatched distance with
  | nil =>
      rw [Fills, List.take_nil] at fills
      have nothing : unmatched = 0 := by
        simpa [countClosing, countOpening, eq_comm] using fills
      rw [nothing, List.drop_nil, kindBeyond]
  | cons token rest ih =>
      cases unmatched with
      | zero =>
          have atOnce : distance = 0 := by
            apply Nat.eq_zero_of_not_pos
            intro later
            exact first 0 later (fills_zero.mpr rfl)
          rw [atOnce, List.drop_zero, kindBeyond]
      | succ unmatched =>
          cases distance with
          | zero => exact absurd (fills_zero.mp fills) (Nat.succ_ne_zero _)
          | succ distance =>
              rw [Cursor.kindBeyond_cons, List.drop_succ_cons]
              apply ih (fills_cons.mp fills)
              intro shorter before filled
              exact first (shorter + 1) (Nat.succ_lt_succ before)
                (fills_cons.mpr filled)

/-- The search ends behind all tokens if something is missing everywhere. -/
theorem kindBeyond_of_not_fills {unmatched : Nat} {tokens : List Token}
    (never : ∀ distance ≤ tokens.length, ¬ Fills unmatched tokens distance) :
    kindBeyond unmatched tokens = .endOfInput := by
  induction tokens generalizing unmatched with
  | nil =>
      cases unmatched with
      | zero => rw [kindBeyond, headKind]
      | succ unmatched => rw [kindBeyond]
  | cons token rest ih =>
      cases unmatched with
      | zero => exact absurd (fills_zero.mpr rfl) (never 0 (Nat.zero_le _))
      | succ unmatched =>
          rw [Cursor.kindBeyond_cons]
          apply ih
          intro distance inside filled
          exact never (distance + 1) (Nat.succ_le_succ inside)
            (fills_cons.mpr filled)

variable {tokens : List Token} {opening : Nat} {token : Token}

/-- From an opening parenthesis on, the kinds are even where the tokens behind
it have one more closing parenthesis. -/
theorem even_stretch_iff (present : tokens[opening]? = some token)
    (isOpening : token.kind = .openParen) (distance : Nat) :
    countClosing (stretch tokens opening (opening + distance)) =
        countOpening (stretch tokens opening (opening + distance)) ↔
      Fills 1 (tokens.drop (opening + 1)) distance := by
  obtain ⟨inside, found⟩ := List.getElem?_eq_some_iff.mp present
  have stretched : stretch tokens opening (opening + distance) =
      token :: (tokens.drop (opening + 1)).take distance := by
    have length : opening + distance + 1 - opening = distance + 1 := by omega
    rw [stretch, List.drop_take, length, List.drop_eq_getElem_cons inside, found,
      List.take_succ_cons]
  rw [stretched, Fills, countClosing, countOpening, List.countP_cons,
    List.countP_cons]
  simp [isOpening, countClosing, countOpening]

/-- The search behind an opening parenthesis tells the kind of the token behind
its partner. -/
theorem kindBeyond_of_isPartner (present : tokens[opening]? = some token)
    (isOpening : token.kind = .openParen) {closing : Nat}
    (isPartner : IsPartner tokens opening closing) :
    kindBeyond 1 (tokens.drop (opening + 1)) = .ofSeen tokens[closing + 1]? := by
  obtain ⟨distance, rfl⟩ := Nat.exists_eq_add_of_lt isPartner.behind
  have even := even_stretch_iff present isOpening
  have fills : Fills 1 (tokens.drop (opening + 1)) (distance + 1) :=
    (even (distance + 1)).mp isPartner.even
  have first : ∀ shorter < distance + 1,
      ¬ Fills 1 (tokens.drop (opening + 1)) shorter := by
    intro shorter before filled
    cases shorter with
    | zero => exact Nat.one_ne_zero (fills_zero.mp filled)
    | succ shorter =>
        exact isPartner.first (opening + (shorter + 1)) (by omega) (by omega)
          ((even (shorter + 1)).mpr filled)
  rw [kindBeyond_of_fills fills first, List.drop_drop, ← Cursor.ofSeen_head?,
    List.head?_drop]
  congr 2
  omega

/-- The search behind an opening parenthesis without partner meets the end. -/
theorem kindBeyond_of_no_partner (present : tokens[opening]? = some token)
    (isOpening : token.kind = .openParen)
    (alone : ¬ ∃ closing, IsPartner tokens opening closing) :
    kindBeyond 1 (tokens.drop (opening + 1)) = .endOfInput := by
  have even := even_stretch_iff present isOpening
  apply kindBeyond_of_not_fills
  intro distance
  -- The first place where nothing is missing would be a partner.
  induction distance using Nat.strongRecOn with
  | ind distance ih =>
      intro inside filled
      rw [List.length_drop] at inside ih
      have positive : distance ≠ 0 := by
        rintro rfl
        exact Nat.one_ne_zero (fills_zero.mp filled)
      refine alone ⟨opening + distance, ?_⟩
      constructor
      · omega
      · omega
      · exact (even distance).mpr filled
      · intro earlier behind before sameNumber
        obtain ⟨shorter, rfl⟩ := Nat.exists_eq_add_of_lt behind
        exact ih (shorter + 1) (by omega) (by omega)
          ((even (shorter + 1)).mp sameNumber)

end Token

namespace Cursor

/-- Nothing was looked at, and the position is right behind the lookahead. -/
structure InPlace (tokens : List Token) (cursor : Cursor) : Prop where
  holds : cursor.tokens = tokens.toArray
  unseen : cursor.peeked = 0
  behind : ∀ index, cursor.lookaheadAt = some index → cursor.position = index + 1

namespace InPlace

variable {tokens : List Token} {cursor : Cursor}

theorem ofTokens (text : String) (tokens : List Token) :
    (Cursor.ofTokens text tokens).InPlace tokens where
  holds := rfl
  unseen := rfl
  behind _ loaded := nomatch loaded

theorem resetPeek (inPlace : cursor.InPlace tokens) : cursor.resetPeek = cursor := by
  rw [Cursor.resetPeek, ← inPlace.unseen]

theorem advance (inPlace : cursor.InPlace tokens) :
    cursor.advance.InPlace tokens := by
  unfold Cursor.advance
  split
  · refine ⟨inPlace.holds, rfl, ?_⟩
    intro index loaded
    exact congrArg (· + 1) (Option.some.inj loaded)
  · exact ⟨inPlace.holds, rfl, fun _ loaded => nomatch loaded⟩

/-- The search behind a parenthesis leaves a cursor in its place. -/
theorem opensGroup (inPlace : cursor.InPlace tokens) :
    (Scout.standard.opensGroup cursor).2 = cursor :=
  cursor.kindBeyondParenthesis_snd.trans inPlace.resetPeek

/-- The search for the form of a predicate leaves a cursor in its place. -/
theorem form (inPlace : cursor.InPlace tokens) :
    (Scout.standard.form cursor).2 = cursor :=
  predicateForm_snd inPlace.resetPeek (sees_passPoints cursor).rewinds

/-- A cursor in its place with a token for a lookahead may look ahead. -/
theorem live (inPlace : cursor.InPlace tokens)
    (classified : ∀ token ∈ tokens, token.kind ≠ .endOfInput) {index : Nat}
    {token : Token} (loaded : cursor.lookaheadAt = some index)
    (present : tokens[index]? = some token) : cursor.Live where
  peeked := inPlace.unseen
  atEnd := by
    intro missing
    rw [Cursor.lookahead, loaded, inPlace.holds, Option.bind_some,
      List.getElem?_toArray, present] at missing
    cases missing
  noEnd := by
    rw [inPlace.holds]
    exact classified

end InPlace

end Cursor

namespace Session

variable {tokens : List Token} {session : Session}

theorem inPlace_free (inPlace : session.cursor.InPlace tokens) (deep : Bool)
    (position : Nat) : (session.free deep position).cursor.InPlace tokens := by
  cases deep with
  | false => exact ⟨inPlace.holds, inPlace.unseen, fun _ loaded => nomatch loaded⟩
  | true => exact ⟨inPlace.holds, rfl, fun _ loaded => nomatch loaded⟩

/-- Every move leaves the cursor in its place. -/
theorem inPlace_move (inPlace : session.cursor.InPlace tokens) (move : Move) :
    (session.move move).cursor.InPlace tokens := by
  cases move with
  | begin => exact inPlace.advance
  | expect kind =>
      unfold Session.move Session.expect
      dsimp only
      split
      · exact inPlace.advance
      · exact inPlace
  | enter => exact inPlace
  | leave => exact inPlace
  | seekGroup =>
      rw [Session.move, inPlace.opensGroup]
      exact inPlace
  | seekForm =>
      rw [Session.move, inPlace.form]
      exact inPlace
  | free deep position => exact inPlace_free inPlace deep position

/-- Wherever moves lead, the cursor is in its place. -/
theorem IsReachable.inPlace (reachable : session.IsReachable tokens) :
    session.cursor.InPlace tokens := by
  obtain ⟨text, limit, moves, rfl⟩ := reachable
  have start : (ofTokens text tokens limit).cursor.InPlace tokens :=
    .ofTokens text tokens
  generalize ofTokens text tokens limit = first at start
  induction moves generalizing first with
  | nil => exact start
  | cons move others ih => exact ih _ (inPlace_move start move)

/-- Wherever the lookahead is an opening parenthesis, looking behind the matching
one tells the kind of the token behind its partner, or the end of the input if
it has none or nothing is behind it, and leaves the session as it was.  The
tokens may be any that stand for no end of the input, as those of a text do. -/
theorem look_behind_partner {index : Nat} {opening : Token}
    (reachable : session.IsReachable tokens)
    (classified : ∀ token ∈ tokens, token.kind ≠ .endOfInput)
    (loaded : session.cursor.lookaheadAt = some index)
    (present : tokens[index]? = some opening)
    (isOpening : opening.kind = .openParen) :
    session.cursor.position = index + 1 ∧ session.cursor.peeked = 0 ∧
      ∃ kind, Walk.scout Cursor.kindBeyondParenthesis session =
          (.ok kind, session) ∧
        (∀ closing, Token.IsPartner tokens index closing →
          kind = .ofSeen tokens[closing + 1]?) ∧
        ((¬ ∃ closing, Token.IsPartner tokens index closing) →
          kind = .endOfInput) := by
  have inPlace := reachable.inPlace
  have position := inPlace.behind index loaded
  have live := inPlace.live classified loaded present
  have behind : session.cursor.pending.tail = tokens.drop (index + 1) := by
    rw [live.tail_pending, Cursor.upcoming, inPlace.holds, position,
      List.toList_toArray]
  have found := Cursor.kindBeyondParenthesis_eq live
  rw [behind] at found
  refine ⟨position, inPlace.unseen, kindBeyond 1 (tokens.drop (index + 1)), ?_,
    ?_, ?_⟩
  · rw [Walk.scout, found]
  · intro closing isPartner
    exact Token.kindBeyond_of_isPartner present isOpening isPartner
  · exact Token.kindBeyond_of_no_partner present isOpening

/-- Inside a group, the next parenthesis is matched by the first that closes,
and a closing one is behind it. -/
theorem look_behind_partner_in_group :
    let text := "(a = 1 OR (b = 2)) AND c = 3"
    let session := (ofTokens text (tokenize text) .standard).moved
      [.begin, .enter, .expect .openParen, .enter, .expect .identifier,
        .expect .equals, .expect .integer, .expect .orWord]
    session.cursor.lookaheadAt = some 5 ∧
      Token.IsPartner (tokenize text) 5 9 ∧
      Walk.scout Cursor.kindBeyondParenthesis session =
        (.ok .closeParen, session) := by
  intro text session
  have loaded : session.cursor.lookaheadAt = some 5 := by decide +kernel
  have isPartner : Token.IsPartner (tokenize text) 5 9 := by
    refine ⟨by decide, by decide +kernel, by decide +kernel, ?_⟩
    intro earlier behind before
    have between : earlier = 6 ∨ earlier = 7 ∨ earlier = 8 := by omega
    rcases between with rfl | rfl | rfl <;> decide +kernel
  have present : (tokenize text)[5]? = some ⟨.openParen, "(", 10⟩ := by
    decide +kernel
  have classified : ∀ token ∈ tokenize text, token.kind ≠ .endOfInput :=
    fun token member => (areLexical_tokenize text token member).kind_ne_endOfInput
  obtain ⟨-, -, kind, told, behindPartner, -⟩ :=
    look_behind_partner ⟨text, .standard, _, rfl⟩ classified loaded present rfl
  have isClosing : kind = .closeParen := by
    rw [behindPartner 9 isPartner]
    decide +kernel
  rw [isClosing] at told
  exact ⟨loaded, isPartner, told⟩

end Session

end Criteria
