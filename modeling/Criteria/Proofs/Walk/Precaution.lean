import Criteria.Parse
import Criteria.Proofs.Parse.Language
import Criteria.Proofs.Walk.Reading

/-!
# Precautions of the lookahead

A walk looks behind the parenthesis that matches an opening one, and it passes
over points behind a subject.  Both are precautions that no accepted input
needs: without them the same inputs are accepted, with the same trees, and the
session is left in the same state.
-/

namespace Criteria

open Grammar

namespace Rule

variable {dispatch : Dispatch} {tokens : List Token} {tree : Expr}
  {allowance : Nat}

/-- Whatever the levels that are allowed, the deepest level of a reading that
comes to a tree follows from the tree. -/
theorem height_of_result_within (regular : dispatch.Regular)
    (lexical : AreLexical tokens)
    (succeeded : (filter dispatch allowance tokens).result = .ok tree) :
    (filter dispatch allowance tokens).height = tree.nesting + 1 := by
  obtain ⟨body, rfl, isCondition, fits⟩ :=
    (result_filter_iff regular lexical).mp succeeded
  have bounded := nesting_le_length regular lexical isCondition
  have free : (filter dispatch (tokens.length + 1) tokens).result =
      .ok (.filter body) :=
    (result_filter_iff regular lexical).mpr
      ⟨body, rfl, isCondition, Nat.lt_succ_of_le bounded⟩
  have height := height_of_result regular lexical free
  rw [Expr.nesting] at height ⊢
  rw [filter_of_height_le (height ▸ fits), height]

end Rule

namespace Session

variable {expression : String} {limit : Limit}

theorem settle_eq_ok_iff {α : Type} {session : Session} {run : Run α} {value : α} :
    (session.settle run).1 = .ok value ↔ run.result = .ok value := by
  unfold settle
  cases run.result with
  | ok found => simp
  | error fault => simp

/-- A fresh walk that looks ahead in a regular way comes to a tree if the
grammar derives it from the tokens and the limit allows its nesting. -/
theorem walk_eq_ok_iff {guide : Scout} {dispatch : Dispatch}
    (decides : guide.Follows dispatch) (regular : dispatch.Regular)
    {tree : Expr} :
    ((ofText expression limit).walk guide).1 = .ok tree ↔
      ∃ body, tree = .filter body ∧ IsCondition (tokenize expression) body ∧
        limit.allows (tree.nesting + 1) := by
  rw [walk_eq_settle decides (serves_ofText expression limit).noEnd,
    settle_eq_ok_iff]
  exact result_reading_iff_of_regular regular

/-- The session that a walk leaves behind an accepted input depends on the tree
and not on the way of looking ahead. -/
theorem walk_of_ok {guide : Scout} {dispatch : Dispatch}
    (decides : guide.Follows dispatch) (regular : dispatch.Regular)
    {tree : Expr} (accepted : ((ofText expression limit).walk guide).1 = .ok tree) :
    (ofText expression limit).walk guide =
      (.ok tree,
        { (ofText expression limit).begun with
          cursor := (Cursor.ofText expression).advance.advanceBy
            (tokenize expression).length
          deepest := tree.nesting + 1 }) := by
  have noEnd := (serves_ofText expression limit).noEnd
  rw [walk_eq_settle decides noEnd] at accepted ⊢
  have succeeded := settle_eq_ok_iff.mp accepted
  rw [settle, succeeded]
  rw [reading_ofText] at succeeded ⊢
  have height := Rule.height_of_result_within regular
    (areLexical_tokenize expression) succeeded
  have rest := Rule.rest_filter_of_ok succeeded
  have closed := (Walk.follows_filter decides _).closed _ tree succeeded
  have pending : (ofText expression limit).begun.cursor.pending =
      tokenize expression := Cursor.pending_advance _
  simp only [settled, rest, height, closed, pending]
  simp [begun, ofText]

/-- Two walks that look ahead in regular ways accept the same inputs, with the
same trees, and leave the same session. -/
theorem walk_eq_walk_of_ok {guide other : Scout} {dispatch otherDispatch : Dispatch}
    (decides : guide.Follows dispatch) (regular : dispatch.Regular)
    (otherDecides : other.Follows otherDispatch)
    (otherRegular : otherDispatch.Regular) {tree : Expr}
    (accepted : ((ofText expression limit).walk guide).1 = .ok tree) :
    (ofText expression limit).walk other = (ofText expression limit).walk guide := by
  have derived := (walk_eq_ok_iff decides regular).mp accepted
  have otherAccepted := (walk_eq_ok_iff otherDecides otherRegular).mpr derived
  rw [walk_of_ok decides regular accepted,
    walk_of_ok otherDecides otherRegular otherAccepted]

/-- The two precautions of the lookahead never change what is accepted: without
them a fresh walk comes to a tree exactly when reading does, and then to the
same tree and the same session. -/
theorem parse_ok_iff_walk_plain (limit : Limit) (expression : String)
    (tree : Expr) :
    (parseWithin limit expression = .ok tree ↔
      ((ofText expression limit).walk .plain).1 = .ok tree) ∧
    ∀ after, (ofText expression limit).parse = (.ok tree, after) ↔
      (ofText expression limit).walk .plain = (.ok tree, after) := by
  have standard := Scout.follows_standard
  have plain := Scout.follows_plain
  have regularStandard := Dispatch.regular_standard
  have regularPlain := Dispatch.regular_plain
  have walked : (ofText expression limit).walk .standard =
      (ofText expression limit).parse :=
    walk_eq_parse (serves_ofText expression limit).noEnd
  rw [parseWithin, ← walked]
  refine ⟨?_, ?_⟩
  · rw [walk_eq_ok_iff standard regularStandard, walk_eq_ok_iff plain regularPlain]
  · intro after
    constructor
    · intro accepted
      rw [walk_eq_walk_of_ok standard regularStandard plain regularPlain
        (congrArg Prod.fst accepted), accepted]
    · intro accepted
      rw [walk_eq_walk_of_ok plain regularPlain standard regularStandard
        (congrArg Prod.fst accepted), accepted]

end Session

end Criteria
