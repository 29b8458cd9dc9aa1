import Criteria.Proofs.Parse.Depth
import Criteria.Proofs.Rule.Placeless
import Criteria.Proofs.Token.Part
import Criteria.Session.Step

/-!
# Sessions forget their history

Whatever was done with a session, a reading depends on the input, on the limit
and on the token that is loaded next, and on nothing else.  A session that was
moved to a token therefore reads the rest of the input as a fresh session does
that has no more than this rest as its input.
-/

namespace Criteria

/-- The diagnostic as it is for an input that has so many characters more in
front. -/
def Diagnostic.within (expression : String) (distance : Nat)
    (diagnostic : Diagnostic) : Diagnostic :=
  { diagnostic with
    offset := diagnostic.offset + distance
    expression := expression }

namespace Session

/-- The session reads the given input within the given limit, and the token
that is loaded next is one of the input or lies directly behind it. -/
structure Serves (expression : String) (limit : Limit) (session : Session) :
    Prop where
  text : session.cursor.text = expression
  tokens : session.cursor.tokens = (tokenize expression).toArray
  limit : session.limit = limit
  inside : session.cursor.position ≤ (tokenize expression).length

variable {expression : String} {limit : Limit} {session : Session}

theorem parse_snd (session : Session) :
    session.parse.2 =
      { session with
        cursor := session.cursor.advance.advanceBy
          (session.cursor.upcoming.length - (session.reading .standard).rest.length)
        openLevels := (session.reading .standard).unclosed
        deepest := (session.reading .standard).height } := by
  unfold parse
  dsimp only
  cases (session.reading .standard).result with
  | ok tree => rfl
  | error fault => rfl

theorem serves_ofText (expression : String) (limit : Limit) :
    (ofText expression limit).Serves expression limit where
  text := rfl
  tokens := rfl
  limit := rfl
  inside := Nat.zero_le _

namespace Serves

theorem size (serves : session.Serves expression limit) :
    session.cursor.tokens.size = (tokenize expression).length := by
  rw [serves.tokens, List.size_toArray]

theorem upcoming (serves : session.Serves expression limit) :
    session.cursor.upcoming = (tokenize expression).drop session.cursor.position := by
  rw [Cursor.upcoming, serves.tokens, List.toList_toArray]

theorem cursorInside (serves : session.Serves expression limit) :
    session.cursor.position ≤ session.cursor.tokens.size := by
  rw [serves.size]
  exact serves.inside

theorem advanceBy (serves : session.Serves expression limit) (count : Nat) :
    (session.cursor.advanceBy count).position ≤ (tokenize expression).length := by
  rw [Cursor.position_advanceBy count _ serves.cursorInside, serves.size]
  exact Nat.min_le_right _ _

theorem parse (serves : session.Serves expression limit) :
    session.parse.2.Serves expression limit := by
  rw [parse_snd]
  exact ⟨by simp [serves.text], by simp [serves.tokens], serves.limit,
    serves.advanceBy (_ + 1)⟩

theorem free (serves : session.Serves expression limit) (deep : Bool)
    (position : Nat) : (session.free deep position).Serves expression limit := by
  have inside : min position session.cursor.tokens.size ≤
      (tokenize expression).length := by
    rw [serves.size]
    exact Nat.min_le_right _ _
  cases deep with
  | true => exact ⟨serves.text, serves.tokens, serves.limit, inside⟩
  | false => exact ⟨serves.text, serves.tokens, serves.limit, inside⟩

theorem expect (serves : session.Serves expression limit) (kind : Kind) :
    (session.expect kind).2.Serves expression limit := by
  unfold Session.expect
  split
  · exact ⟨by simp [serves.text], by simp [serves.tokens], serves.limit,
      serves.advanceBy 1⟩
  · exact serves

theorem step (serves : session.Serves expression limit) (next : Step) :
    (session.step next).2.Serves expression limit := by
  cases next with
  | parse => exact serves.parse
  | free deep position => exact serves.free deep position
  | expect kind => exact serves.expect kind

/-- Whatever is done with a session, it serves the same input and limit. -/
theorem after (serves : session.Serves expression limit) (history : List Step) :
    (session.after history).Serves expression limit := by
  induction history generalizing session with
  | nil => exact serves
  | cons next others ih => exact ih (serves.step next)

end Serves

/-- Where the cursor is moved to decides which tokens are upcoming. -/
theorem Serves.upcoming_free (serves : session.Serves expression limit)
    (deep : Bool) (position : Nat) :
    (session.free deep position).cursor.upcoming =
      (tokenize expression).drop position := by
  have moved : (session.free deep position).cursor.position =
      min position (tokenize expression).length := by
    rw [← serves.size]
    cases deep <;> rfl
  rw [(serves.free deep position).upcoming, moved]
  rcases Nat.le_total position (tokenize expression).length with inside | behind
  · rw [Nat.min_eq_left inside]
  · rw [Nat.min_eq_right behind, List.drop_length, List.drop_of_length_le behind]

/-- Nothing but the input, the limit and the upcoming tokens decides how a
reading comes out. -/
theorem Serves.parse_eq {other : Session}
    (serves : session.Serves expression limit)
    (otherServes : other.Serves expression limit)
    (same : session.cursor.upcoming = other.cursor.upcoming) :
    session.parse.1 = other.parse.1 ∧
      session.parse.2.deepest = other.parse.2.deepest := by
  have sameReading : session.reading .standard = other.reading .standard := by
    rw [Session.reading, Session.reading, same, serves.limit, otherServes.limit]
  have sameText : session.expression = other.expression := by
    rw [Session.expression, Session.expression, serves.text, otherServes.text]
  constructor
  · rw [parse_fst, parse_fst, sameReading, sameText, serves.limit,
      otherServes.limit]
  · rw [deepest_parse, deepest_parse, sameReading]

/-- Tokens that were looked at are forgotten when the next one is loaded. -/
theorem parse_free_deep (session : Session) (deep other : Bool) (position : Nat) :
    (session.free deep position).parse = (session.free other position).parse := by
  have shallow (deep : Bool) :
      (session.free deep position).parse = (session.free false position).parse := by
    cases deep with
    | false => rfl
    | true => rfl
  rw [shallow deep, shallow other]

end Session

theorem areAlike_shift (distance : Nat) (tokens : List Token) :
    AreAlike tokens (tokens.map (Token.shift distance)) := by
  induction tokens with
  | nil => exact .nil
  | cons first others ih => exact .cons ⟨rfl, rfl⟩ ih

/-- A reading of tokens further behind comes out as that of the same tokens in
front, and leaves the same tokens. -/
theorem Rule.filter_shift (allowance distance : Nat) (tokens : List Token) :
    let here := filter .standard allowance tokens
    let behind := filter .standard allowance (tokens.map (Token.shift distance))
    behind.result = here.result ∧ behind.height = here.height ∧
      behind.rest = here.rest.map (Token.shift distance) := by
  intro here behind
  have alike : here.Alike Eq behind :=
    placeless_filter Dispatch.placeless_standard allowance _ _
      (areAlike_shift distance tokens)
  have hereSuffix : here.rest.map (Token.shift distance) <:+
      tokens.map (Token.shift distance) :=
    ((orderly_filter .standard allowance).behindParen tokens).suffix.map _
  have behindSuffix : behind.rest <:+ tokens.map (Token.shift distance) :=
    ((orderly_filter .standard allowance).behindParen _).suffix
  have sameLength : behind.rest.length =
      (here.rest.map (Token.shift distance)).length := by
    rw [List.length_map]
    exact alike.rest.length_eq.symm
  refine ⟨alike.result.eq.symm, alike.height_eq.symm, ?_⟩
  have within := List.suffix_of_suffix_length_le behindSuffix hereSuffix
    (Nat.le_of_eq sameLength)
  exact within.eq_of_length sameLength

theorem Fault.diagnose_shift {expression part : String} {distance : Nat}
    (size : expression.length = part.length + distance) (fault : Fault)
    (lookahead : Option Token) (limit : Limit) :
    fault.diagnose (lookahead.map (Token.shift distance)) expression limit =
      (fault.diagnose lookahead part limit).within expression distance := by
  cases lookahead with
  | none =>
      simp only [diagnose, Option.map_none, Diagnostic.within, size]
  | some token => cases fault <;> rfl

/-- An input is divided in front of a token at the place of the token. -/
theorem Divides.placeOf_eq {expression : String} {used rest : List Token}
    {front back : List Char} (divides : Divides 0 used rest front back)
    (whole : expression.toList = front ++ back) :
    placeOf expression rest = front.length := by
  apply Criteria.placeOf_eq
  · simpa using divides.atToken
  · intro none
    rw [← String.length_toList, whole, divides.atEnd none, List.append_nil]

namespace Session

variable {expression : String} {limit : Limit} {session : Session}

/-- A session that was moved to a token reads the rest of the input as a fresh
session does. -/
theorem Serves.parse_free (serves : session.Serves expression limit)
    (deep : Bool) (position : Nat) :
    let start := placeOf expression ((tokenize expression).drop position)
    let fresh :=
      (ofText (String.ofList (expression.toList.drop start)) limit).parse
    let freed := (session.free deep position).parse
    freed.1 = fresh.1.mapError (Diagnostic.within expression start) ∧
      freed.2.deepest = fresh.2.deepest := by
  intro start fresh freed
  obtain ⟨front, back, whole, divides⟩ := exists_divides
    (List.take_append_drop position (tokenize expression)).symm
  have isStart : start = front.length := divides.placeOf_eq whole
  have isPart : expression.toList.drop start = back := by
    rw [whole, isStart, List.drop_left]
  have isFresh : fresh = (ofText (String.ofList back) limit).parse := by
    simp only [fresh, isPart]
  have freedServes := serves.free deep position
  have freedReading : (session.free deep position).reading .standard =
      Rule.filter .standard
        (limit.allowance (tokenize (String.ofList back)).length)
        ((tokenize (String.ofList back)).map (Token.shift front.length)) := by
    rw [Session.reading, serves.upcoming_free, freedServes.limit,
      divides.rest_eq, List.length_map]
  obtain ⟨sameResult, sameHeight, sameRest⟩ := Rule.filter_shift
    (limit.allowance (tokenize (String.ofList back)).length) front.length
    (tokenize (String.ofList back))
  constructor
  · have size : expression.length =
        (String.ofList back).length + front.length := by
      rw [← String.length_toList, whole, List.length_append, Nat.add_comm,
        String.length_ofList]
    have isExpression : (session.free deep position).expression = expression :=
      freedServes.text
    have isPartExpression : (ofText (String.ofList back) limit).expression =
        String.ofList back :=
      rfl
    have isLimit : (ofText (String.ofList back) limit).limit = limit := rfl
    rw [isFresh, parse_fst, parse_fst, freedReading, reading_ofText, sameResult,
      sameRest, isExpression, isPartExpression, freedServes.limit, isLimit,
      isStart]
    cases (Rule.filter .standard
        (limit.allowance (tokenize (String.ofList back)).length)
        (tokenize (String.ofList back))).result with
    | ok tree => rfl
    | error fault =>
        simp only [Except.mapError, List.head?_map, Fault.diagnose_shift size]
  · rw [isFresh, deepest_parse, deepest_parse, freedReading, reading_ofText,
      sameHeight]

/-- A reading loads the token at which it ends, if there is one. -/
theorem Serves.position_parse (serves : session.Serves expression limit) :
    session.parse.2.cursor.position =
      min ((tokenize expression).length -
        (session.reading .standard).rest.length + 1)
        (tokenize expression).length := by
  have remaining := (session.reading_suffix .standard).length_le
  have inside := serves.inside
  have loaded := Cursor.position_advanceBy
    (session.cursor.upcoming.length -
      (session.reading .standard).rest.length + 1) _ serves.cursorInside
  rw [parse_snd]
  refine loaded.trans ?_
  rw [serves.upcoming, List.length_drop] at *
  rw [serves.size]
  omega

/-- A diagnostic lies at the first token that the reading left. -/
theorem Serves.offset_of_parse (serves : session.Serves expression limit)
    {diagnostic : Diagnostic} (failed : session.parse.1 = .error diagnostic) :
    diagnostic.offset = placeOf expression (session.reading .standard).rest := by
  obtain ⟨fault, _, rfl⟩ := parse_eq_error_iff.mp failed
  rw [Fault.offset_diagnose, Session.expression, serves.text]

/-- Behind a reading the next token is the one behind the offending token, or
there is none. -/
theorem Serves.after_parse (serves : session.Serves expression limit) :
    (∀ tree, session.parse.1 = .ok tree →
      session.parse.2.cursor.position = (tokenize expression).length) ∧
    (∀ diagnostic, session.parse.1 = .error diagnostic →
      (∃ index token, (tokenize expression)[index]? = some token ∧
        diagnostic.offset = token.offset ∧
        session.parse.2.cursor.position = index + 1) ∨
      (diagnostic.offset = expression.length ∧
        session.parse.2.cursor.position = (tokenize expression).length)) := by
  have place := serves.position_parse
  constructor
  · intro tree succeeded
    have nothing : (session.reading .standard).rest = [] :=
      Rule.rest_filter_of_ok (parse_eq_ok_iff.mp succeeded)
    rw [place, nothing, List.length_nil, Nat.sub_zero]
    exact Nat.min_eq_right (Nat.le_succ _)
  · intro diagnostic failed
    have behind : (session.reading .standard).rest <:+ tokenize expression :=
      (session.reading_suffix .standard).trans
        (serves.upcoming ▸ List.drop_suffix _ _)
    obtain ⟨used, split⟩ := behind
    have offset : diagnostic.offset =
        placeOf expression (session.reading .standard).rest :=
      serves.offset_of_parse failed
    have sizes := congrArg List.length split
    rw [List.length_append] at sizes
    cases left : (session.reading .standard).rest with
    | nil =>
        right
        rw [left] at offset place
        refine ⟨offset, place.trans ?_⟩
        exact Nat.min_eq_right (Nat.le_succ _)
    | cons token others =>
        left
        rw [left] at offset place split sizes
        rw [List.length_cons] at place sizes
        refine ⟨used.length, token, ?_, offset, by omega⟩
        rw [← split, List.getElem?_append_right (Nat.le_refl _), Nat.sub_self,
          List.getElem?_cons_zero]

/-- A session does not remember what was done with it.  After any history,
moving it to a token and reading comes out as a fresh reading of the rest of the
input, with the characters in front added to the place of a diagnostic; whether
the tokens that were looked at are forgotten makes no difference.  Reading
without moving it is reading after moving it to the token that is loaded next,
which is the one behind the offending token of the last reading, and none behind
a reading that came to the end of the input. -/
theorem parse_after_history (expression : String) (limit : Limit)
    (history : List Step) (deep : Bool) (position : Nat) :
    let session := (ofText expression limit).after history
    let start := placeOf expression ((tokenize expression).drop position)
    let fresh :=
      (ofText (String.ofList (expression.toList.drop start)) limit).parse
    let freed := (session.free deep position).parse
    let next := (session.free deep session.cursor.position).parse
    (freed.1 = fresh.1.mapError (Diagnostic.within expression start) ∧
      freed.2.deepest = fresh.2.deepest) ∧
    (∀ other, (session.free other position).parse = freed) ∧
    (session.parse.1 = next.1 ∧ session.parse.2.deepest = next.2.deepest) ∧
    (∀ tree, session.parse.1 = .ok tree →
      session.parse.2.cursor.position = (tokenize expression).length) ∧
    (∀ diagnostic, session.parse.1 = .error diagnostic →
      (∃ index token, (tokenize expression)[index]? = some token ∧
        diagnostic.offset = token.offset ∧
        session.parse.2.cursor.position = index + 1) ∨
      (diagnostic.offset = expression.length ∧
        session.parse.2.cursor.position = (tokenize expression).length)) := by
  intro session start fresh freed next
  have serves : session.Serves expression limit :=
    (serves_ofText expression limit).after history
  refine ⟨serves.parse_free deep position, ?_, ?_, serves.after_parse⟩
  · intro other
    exact parse_free_deep session other deep position
  · have same : session.cursor.upcoming =
        (session.free deep session.cursor.position).cursor.upcoming := by
      rw [serves.upcoming_free, serves.upcoming]
    exact serves.parse_eq (serves.free deep _) same

end Session

end Criteria
