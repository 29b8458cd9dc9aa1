import Criteria.Proofs.Cursor.Advance
import Criteria.Proofs.Rule.Orderly
import Criteria.Session

/-!
# What a session answers

A session answers what the reading of its tokens came to.  The cursor has then
consumed the tokens that the reading consumed, so that a fault is reported at
the first one that it left.
-/

namespace Criteria

namespace Session

theorem reading_suffix (session : Session) (dispatch : Dispatch) :
    (session.reading dispatch).rest <:+ session.cursor.upcoming :=
  ((Rule.orderly_filter dispatch _).behindParen _).suffix

theorem parse_fst (session : Session) :
    session.parse.1 =
      match (session.reading .standard).result with
      | .ok tree => .ok tree
      | .error fault =>
          .error (fault.diagnose (session.reading .standard).rest.head?
            session.expression session.limit) := by
  obtain ⟨used, split⟩ := session.reading_suffix .standard
  have consumed : session.cursor.upcoming.length -
      (session.reading .standard).rest.length = used.length := by
    rw [← split, List.length_append]
    omega
  have next : session.cursor.upcoming[used.length]? =
      (session.reading .standard).rest.head? := by
    rw [← split, List.getElem?_append_right (Nat.le_refl _), Nat.sub_self,
      List.head?_eq_getElem?]
  unfold parse
  simp only [consumed]
  cases (session.reading .standard).result with
  | ok tree => rfl
  | error fault =>
      simp only [diagnose, expression, Cursor.lookahead_advanceBy, next,
        Cursor.text_advanceBy, Cursor.text_advance]

theorem parse_eq_ok_iff {session : Session} {tree : Expr} :
    session.parse.1 = .ok tree ↔
      (session.reading .standard).result = .ok tree := by
  rw [parse_fst]
  cases (session.reading .standard).result with
  | ok value => simp
  | error fault => simp

theorem parse_eq_error_iff {session : Session} {diagnostic : Diagnostic} :
    session.parse.1 = .error diagnostic ↔
      ∃ fault, (session.reading .standard).result = .error fault ∧
        fault.diagnose (session.reading .standard).rest.head?
          session.expression session.limit = diagnostic := by
  rw [parse_fst]
  cases (session.reading .standard).result with
  | ok value => simp
  | error fault => simp

theorem deepest_parse (session : Session) :
    session.parse.2.deepest = (session.reading .standard).height := by
  unfold parse
  dsimp only
  cases (session.reading .standard).result with
  | ok tree => rfl
  | error fault => rfl

theorem reading_ofText (dispatch : Dispatch) (expression : String)
    (limit : Limit) :
    (ofText expression limit).reading dispatch =
      Rule.filter dispatch (limit.allowance (tokenize expression).length)
        (tokenize expression) :=
  rfl

end Session

end Criteria
