import Criteria.Cursor.Protocol
import Criteria.Proofs.Parse.Viable
import Criteria.Proofs.Walk.Reading

/-!
# What a diagnostic promises

A walk that stops does not go past the token at which it stops.  Its diagnostic
names this token and its place, and the cursor has it as the lookahead, with the
token in front of it consumed last and nothing behind it looked at.
-/

namespace Criteria

namespace Cursor

variable {cursor : Cursor} {tokens : List Token} {index : Nat}

/-- The cursor has come to the token with the given index and looked no
further.  Behind the last token it has no lookahead. -/
structure StandsAt (cursor : Cursor) (tokens : List Token) (index : Nat) :
    Prop where
  lookahead : cursor.lookahead = tokens[index]?
  current : cursor.current = tokenBefore tokens index
  loaded : cursor.position = min (index + 1) tokens.length
  peeked : cursor.peeked = 0

theorem standsAt_advance_ofText (expression : String) :
    (ofText expression).advance.StandsAt (tokenize expression) 0 where
  lookahead := by
    rw [lookahead_advance, List.head?_eq_getElem?]
    rfl
  current := by
    rw [current_advance]
    rfl
  loaded := by
    rw [position_advance _ (Nat.zero_le _)]
    rfl
  peeked := peeked_advance _

/-- Consuming the lookahead brings the cursor to the next token. -/
theorem StandsAt.advance (stands : cursor.StandsAt tokens index)
    (holds : cursor.tokens = tokens.toArray) :
    cursor.advance.StandsAt tokens (index + 1) where
  lookahead := by
    rw [lookahead_advance, upcoming, holds, stands.loaded, List.head?_drop,
      List.toList_toArray]
    by_cases inside : index + 1 ≤ tokens.length
    · rw [Nat.min_eq_left inside]
    · have behind : tokens.length ≤ index + 1 := Nat.le_of_not_le inside
      rw [Nat.min_eq_right behind, List.getElem?_eq_none (Nat.le_refl _),
        List.getElem?_eq_none behind]
  current := by
    rw [current_advance, stands.lookahead]
    rfl
  loaded := by
    have size : cursor.tokens.size = tokens.length := by
      rw [holds, List.size_toArray]
    have within : cursor.position ≤ cursor.tokens.size := by
      rw [stands.loaded, size]
      exact Nat.min_le_right _ _
    rw [position_advance _ within, stands.loaded, size]
    omega
  peeked := peeked_advance cursor

theorem StandsAt.advanceBy (stands : cursor.StandsAt tokens index)
    (holds : cursor.tokens = tokens.toArray) (count : Nat) :
    (cursor.advanceBy count).StandsAt tokens (index + count) := by
  induction count generalizing cursor index with
  | zero => exact stands
  | succ count ih =>
      have next := ih (stands.advance holds) (by rw [tokens_advance, holds])
      rwa [Nat.add_assoc, Nat.add_comm 1] at next

/-- Where the cursor stands behind the last token, every token was loaded. -/
theorem StandsAt.upcoming_eq_nil (stands : cursor.StandsAt tokens tokens.length)
    (holds : cursor.tokens = tokens.toArray) : cursor.upcoming = [] := by
  rw [upcoming, stands.loaded, holds, List.drop_eq_nil_iff]
  simp

end Cursor

/-- The diagnostic says what was wanted in the place of what was found, or that
the input nests too deeply for the limit. -/
def Diagnostic.Tells (diagnostic : Diagnostic) (limit : Limit) (found : String) :
    Prop :=
  (∃ wanted : Expectation,
    diagnostic.message = "Expected " ++ wanted.describe ++ ", got " ++ found) ∨
  diagnostic.message =
    "maximum nesting depth " ++ toString limit.toNat ++ " exceeded"

theorem Expectation.describe_ne_empty (wanted : Expectation) :
    wanted.describe ≠ "" := by
  cases wanted with
  | kind kind => cases kind <;> decide
  | literal | pattern | relOp => decide

/-- A diagnosed fault tells what was found at the lookahead. -/
theorem Fault.tells_diagnose (fault : Fault) (lookahead : Option Token)
    (expression : String) (limit : Limit) :
    (fault.diagnose lookahead expression limit).Tells limit
      (Cause.foundPart (lookahead.map Token.text)) := by
  cases fault with
  | tooDeep => exact .inr rfl
  | expected wanted =>
      left
      refine ⟨wanted, ?_⟩
      have named : Cause.wantedPart wanted.describe =
          "Expected " ++ wanted.describe ++ ", got " :=
        if_neg wanted.describe_ne_empty
      rw [← named]
      rfl

namespace Session

variable {expression : String} {limit : Limit}

theorem settle_of_error {α : Type} {session : Session} {run : Run α}
    {diagnostic : Diagnostic}
    (stopped : (session.settle run).1 = .error diagnostic) :
    (session.settle run).2 = session.settled run ∧
      ∃ fault, diagnostic = (session.settled run).diagnose fault := by
  unfold settle at stopped ⊢
  cases outcome : run.result with
  | ok value =>
      rw [outcome] at stopped
      cases stopped
  | error fault =>
      rw [outcome] at stopped
      cases stopped
      exact ⟨rfl, fault, rfl⟩

/-- The walk over a fresh input stops at one of its tokens or behind the last,
and its diagnostic is that of the lookahead there. -/
theorem walk_stops {diagnostic : Diagnostic}
    (failed : ((ofText expression limit).walk .standard).1 = .error diagnostic) :
    ∃ index ≤ (tokenize expression).length,
      ((ofText expression limit).walk .standard).2.cursor.StandsAt
          (tokenize expression) index ∧
        ∃ fault : Fault, diagnostic =
          fault.diagnose (tokenize expression)[index]? expression limit := by
  have noEnd := (serves_ofText expression limit).noEnd
  have settles := walk_eq_settle Scout.follows_standard noEnd
  rw [settles] at failed ⊢
  obtain ⟨after, fault, told⟩ := settle_of_error failed
  rw [after]
  have pending : (ofText expression limit).begun.cursor.pending =
      tokenize expression := Cursor.pending_advance _
  have holds : (ofText expression limit).begun.cursor.tokens =
      (tokenize expression).toArray := Cursor.tokens_advance _
  let consumed := (tokenize expression).length -
    ((ofText expression limit).reading .standard).rest.length
  have stands := (Cursor.standsAt_advance_ofText expression).advanceBy holds consumed
  rw [Nat.zero_add] at stands
  have cursor : ((ofText expression limit).begun.settled
      ((ofText expression limit).reading .standard)).cursor =
        (Cursor.ofText expression).advance.advanceBy consumed := by
    rw [settled, pending]
    rfl
  refine ⟨consumed, Nat.sub_le _ _, by rwa [cursor], fault, ?_⟩
  rw [told, diagnose, Session.expression, cursor, stands.lookahead,
    Cursor.text_advanceBy, Cursor.text_advance]
  rfl

theorem offset_le_length {token : Token} (member : token ∈ tokenize expression) :
    token.offset ≤ expression.length := by
  obtain ⟨lead, gaps, laidOut⟩ := laidOut_scan 0 expression.toList
  have inside := laidOut.offset_lt token member
  rw [Nat.zero_add, String.length_toList] at inside
  exact Nat.le_of_lt inside

/-- A fresh reading that fails does so as the walk step by step does.  The
diagnostic is about the form of the input, shows the input and lies within it.
It lies at a token and names this token, or at the end of the input when no
token is left.  The cursor has come to this place and not beyond it: the token
is the lookahead, the one in front of it was consumed last, and nothing more was
looked at. -/
theorem parse_error_contract (expression : String) (limit : Limit)
    (diagnostic : Diagnostic) (after : Session)
    (failed : (ofText expression limit).parse = (.error diagnostic, after)) :
    let tokens := tokenize expression
    (ofText expression limit).walk .standard = (.error diagnostic, after) ∧
      diagnostic.category = .form ∧ diagnostic.expression = expression ∧
      diagnostic.offset ≤ expression.length ∧
      ∃ index, after.cursor.StandsAt tokens index ∧
        ((∃ token, tokens[index]? = some token ∧
            diagnostic.offset = token.offset ∧
            diagnostic.Tells limit ("'" ++ token.text ++ "'")) ∨
          (index = tokens.length ∧ after.cursor.upcoming = [] ∧
            diagnostic.offset = expression.length ∧
            diagnostic.Tells limit "end of string.")) := by
  intro tokens
  have walked := walk_eq_parse (serves_ofText expression limit).noEnd
  have holds := (serves_ofText expression limit).parse.tokens
  rw [failed] at walked holds
  refine ⟨walked, ?_⟩
  obtain ⟨index, within, stands, fault, rfl⟩ :=
    walk_stops (congrArg Prod.fst walked)
  rw [walked] at stands
  have tells := fault.tells_diagnose tokens[index]? expression limit
  have form : (fault.diagnose tokens[index]? expression limit).category = .form := by
    cases fault <;> rfl
  cases found : tokens[index]? with
  | some token =>
      rw [found] at tells form
      have inside := offset_le_length (List.mem_of_getElem? found)
      exact ⟨form, rfl, inside, index, stands, .inl ⟨token, found, rfl, tells⟩⟩
  | none =>
      rw [found] at tells form
      have atEnd : index = tokens.length :=
        Nat.le_antisymm within (List.getElem?_eq_none_iff.mp found)
      rw [atEnd] at stands
      exact ⟨form, rfl, Nat.le_refl _, tokens.length, stands,
        .inr ⟨rfl, stands.upcoming_eq_nil holds, rfl, tells⟩⟩

theorem parse_error_contract_of_field_in_list :
    (ofText "NOT (a IN (1, b))" .standard).parse.1 =
        .error ⟨.mismatch "Literal" (some "b"), 14, "NOT (a IN (1, b))"⟩ ∧
      ∃ index, (ofText "NOT (a IN (1, b))" .standard).parse.2.cursor.StandsAt
        (tokenize "NOT (a IN (1, b))") index := by
  have failed : (ofText "NOT (a IN (1, b))" .standard).parse.1 =
      .error ⟨.mismatch "Literal" (some "b"), 14, "NOT (a IN (1, b))"⟩ := by
    apply eq_error_of_casesOn
    decide +kernel
  obtain ⟨-, -, -, -, index, stands, -⟩ :=
    parse_error_contract _ _ _ _ (Prod.ext failed rfl)
  exact ⟨failed, index, stands⟩

end Session

end Criteria
