import Criteria.Proofs.Parse.Viable
import Criteria.Proofs.Token.Layout

/-!
# Layout does not matter

What an input means does not depend on the blanks between its lexemes, as long
as some are left where lexemes would run together.  Laid out anew, the input has
tokens alike, and reading does not look at the places of tokens.  So the same
tree is read, or the same is found wrong at the corresponding token.
-/

namespace Criteria

/-- The places are those of corresponding tokens of two inputs, or both are the
ends of the inputs. -/
def SamePlace (left right : String) (leftPlace rightPlace : Nat) : Prop :=
  (∃ (index : Nat) (leftToken rightToken : Token),
    (tokenize left)[index]? = some leftToken ∧
      (tokenize right)[index]? = some rightToken ∧
      leftPlace = leftToken.offset ∧ rightPlace = rightToken.offset) ∨
    (leftPlace = left.length ∧ rightPlace = right.length)

theorem getElem?_of_areAlike {left right : List Token}
    (alike : AreAlike left right) (index : Nat) :
    (left[index]? = none ∧ right[index]? = none) ∨
      ∃ leftToken rightToken : Token, left[index]? = some leftToken ∧
        right[index]? = some rightToken ∧ leftToken.Alike rightToken := by
  induction alike generalizing index with
  | nil => exact .inl ⟨rfl, rfl⟩
  | cons first _ ih =>
      cases index with
      | zero => exact .inr ⟨_, _, rfl, rfl, first⟩
      | succ index => exact ih index

/-- A reading stops at the token behind those that it consumed. -/
theorem Session.head?_rest_reading (session : Session) (dispatch : Dispatch) :
    (session.reading dispatch).rest.head? =
      session.cursor.upcoming[session.cursor.upcoming.length -
        (session.reading dispatch).rest.length]? := by
  rw [← List.head?_drop]
  exact congrArg List.head?
    (List.suffix_iff_eq_drop.mp (session.reading_suffix dispatch))

section Alike

variable {left right : String} (alike : AreAlike (tokenize left) (tokenize right))

include alike

/-- Readings of alike tokens come out in the same way, and they stop at
corresponding tokens. -/
theorem Session.reading_of_areAlike (limit : Limit) :
    ((ofText right limit).reading .standard).result =
        ((ofText left limit).reading .standard).result ∧
      ∃ index : Nat,
        ((ofText left limit).reading .standard).rest.head? =
            (tokenize left)[index]? ∧
          ((ofText right limit).reading .standard).rest.head? =
            (tokenize right)[index]? := by
  have sameAllowance : limit.allowance (tokenize right).length =
      limit.allowance (tokenize left).length := by
    rw [alike.length_eq]
  have runs : ((ofText left limit).reading .standard).Alike Eq
      ((ofText right limit).reading .standard) := by
    rw [reading_ofText, reading_ofText, sameAllowance]
    exact Rule.placeless_filter Dispatch.placeless_standard _ _ _ alike
  have stops (text : String) : ((ofText text limit).reading .standard).rest.head? =
      (tokenize text)[(tokenize text).length -
        ((ofText text limit).reading .standard).rest.length]? :=
    head?_rest_reading (ofText text limit) .standard
  refine ⟨runs.result.eq.symm, _, stops left, ?_⟩
  rw [alike.length_eq, runs.rest.length_eq]
  exact stops right

/-- A fault at corresponding tokens is diagnosed with the same message there. -/
theorem Fault.diagnose_of_areAlike (fault : Fault) (limit : Limit) (index : Nat) :
    (fault.diagnose (tokenize right)[index]? right limit).message =
        (fault.diagnose (tokenize left)[index]? left limit).message ∧
      SamePlace left right
        (fault.diagnose (tokenize left)[index]? left limit).offset
        (fault.diagnose (tokenize right)[index]? right limit).offset := by
  rcases getElem?_of_areAlike alike index with
    ⟨leftEnds, rightEnds⟩ | ⟨leftToken, rightToken, isLeft, isRight, same⟩
  · rw [leftEnds, rightEnds]
    exact ⟨rfl, .inr ⟨rfl, rfl⟩⟩
  · rw [isLeft, isRight]
    refine ⟨?_, .inl ⟨index, leftToken, rightToken, isLeft, isRight, rfl, rfl⟩⟩
    simp only [diagnose, Diagnostic.message, Option.map_some, same.2]

/-- Inputs with alike tokens are read as the same tree, or they are refused with
the same message at corresponding places. -/
theorem parse_of_areAlike (limit : Limit) :
    (∀ tree, parseWithin limit left = .ok tree →
      parseWithin limit right = .ok tree) ∧
    ∀ diagnostic, parseWithin limit left = .error diagnostic →
      ∃ moved, parseWithin limit right = .error moved ∧
        moved.message = diagnostic.message ∧
        SamePlace left right diagnostic.offset moved.offset := by
  obtain ⟨sameResult, index, leftStop, rightStop⟩ :=
    Session.reading_of_areAlike alike limit
  constructor
  · intro tree parsed
    rw [parseWithin, Session.parse_eq_ok_iff] at parsed ⊢
    rw [sameResult, parsed]
  · intro diagnostic failed
    obtain ⟨fault, outcome, rfl⟩ := Session.parse_eq_error_iff.mp failed
    rw [← sameResult] at outcome
    refine ⟨_, Session.parse_eq_error_iff.mpr ⟨fault, outcome, rfl⟩, ?_⟩
    rw [leftStop, rightStop]
    exact fault.diagnose_of_areAlike alike limit index

end Alike

/-- Layout does not matter.  When the lexemes of an input are written with any
blanks around them, and at least one between two of them, the tokens keep their
kinds and texts and stand where the blanks put them.  Within every limit the
same tree is read, or the same message is given at the corresponding token, or
at the end if it was given there. -/
theorem parse_layOut {expression : String} {lead : List Char}
    {gaps : List (List Char)}
    (separating : Separating (tokenize expression).length lead gaps) :
    let written := String.ofList (layOut lead (tokenize expression) gaps)
    AreAlike (tokenize expression) (tokenize written) ∧
      LaidOut 0 written.toList (tokenize written) lead gaps ∧
      ∀ limit,
        (∀ tree, parseWithin limit expression = .ok tree →
          parseWithin limit written = .ok tree) ∧
        ∀ diagnostic, parseWithin limit expression = .error diagnostic →
          ∃ moved, parseWithin limit written = .error moved ∧
            moved.message = diagnostic.message ∧
            SamePlace expression written diagnostic.offset moved.offset := by
  intro written
  obtain ⟨alike, laidOut⟩ := tokenize_layOut separating
  exact ⟨alike, laidOut, parse_of_areAlike alike⟩

theorem parse_layOut_of_unclosed_quote :
    parseWithin .standard "a='x''y" =
        .error ⟨.mismatch "end of string" (some "'"), 5, "a='x''y"⟩ ∧
      ∃ moved,
        parseWithin .standard (String.ofList (layOut ['\u3000'] (tokenize "a='x''y")
          [['\t'], [' ', ' '], ['\n'], [' '], []])) = .error moved ∧
        moved.message = "Expected end of string, got '''" := by
  have failed : parseWithin .standard "a='x''y" =
      .error ⟨.mismatch "end of string" (some "'"), 5, "a='x''y"⟩ := by
    apply eq_error_of_casesOn
    decide +kernel
  have separating : Separating (tokenize "a='x''y").length ['\u3000']
      [['\t'], [' ', ' '], ['\n'], [' '], []] :=
    ⟨by decide +kernel, by decide, by decide, by decide⟩
  obtain ⟨moved, refused, message, -⟩ :=
    ((parse_layOut separating).2.2 .standard).2 _ failed
  exact ⟨failed, moved, refused, message⟩

end Criteria
