import Criteria.Proofs.Walk.Course
import Criteria.Proofs.Walk.Reading
import Criteria.Session.Move

/-!
# Walks are made of moves

Whatever a walk reads and wherever it stops, the session that it leaves is one
to which moves lead.  The same holds of everything that is done with a session.
-/

namespace Criteria

/-- A walk that has a course does nothing to a session but moves. -/
theorem Walk.Course.exists_moves {α : Type} {walk : Walk α} (course : Course walk)
    (session : Session) : ∃ moves, (walk session).2 = session.moved moves := by
  induction course generalizing session with
  | pure _ | look _ | refuse _ => exact ⟨[], rfl⟩
  | expect kind => exact ⟨[.expect kind], rfl⟩
  | seekGroup => exact ⟨[.seekGroup], rfl⟩
  | seekForm => exact ⟨[.seekForm], rfl⟩
  | @bind _ _ first next courseFirst courseNext ihFirst ihNext =>
      obtain ⟨moves, early⟩ := ihFirst session
      rcases bind_cases first next session with
        ⟨_, after, stopped, ended⟩ | ⟨value, after, went, ended⟩
      · rw [stopped] at early
        rw [ended]
        exact ⟨moves, early⟩
      · obtain ⟨further, late⟩ := ihNext value after
        rw [went] at early
        have early : after = session.moved moves := early
        rw [ended, late, early]
        exact ⟨moves ++ further, (Session.moved_append session moves further).symm⟩
  | @deepen _ walk inner ih =>
      obtain ⟨moves, within⟩ := ih () session.deeper
      rcases deepen_cases walk session with
        ⟨-, ended⟩ | ⟨-, _, after, stopped, ended⟩ | ⟨-, _, after, went, ended⟩
      · rw [ended]
        exact ⟨[.enter], rfl⟩
      · rw [stopped] at within
        rw [ended]
        exact ⟨.enter :: moves, within⟩
      · rw [went] at within
        have within : after = session.deeper.moved moves := within
        rw [ended, within]
        refine ⟨.enter :: (moves ++ [.leave]), ?_⟩
        exact (Session.moved_append session.deeper moves [.leave]).symm

namespace Session

theorem exists_moves_walk (session : Session) :
    ∃ moves, (session.walk .standard).2 = session.moved moves := by
  obtain ⟨moves, went⟩ := (Walk.Course.filter
    (session.limit.allowance session.cursor.upcoming.length)).exists_moves
      session.begun
  exact ⟨.begin :: moves, went⟩

/-- Whatever is done with a session, it comes into a state to which moves lead. -/
theorem exists_moves_step {session : Session} (noEnd : session.NoEnd)
    (step : Step) : ∃ moves, (session.step step).2 = session.moved moves := by
  cases step with
  | parse =>
      have walked := walk_eq_parse noEnd
      obtain ⟨moves, went⟩ := session.exists_moves_walk
      rw [walked] at went
      exact ⟨moves, went⟩
  | free deep position => exact ⟨[.free deep position], rfl⟩
  | expect kind => exact ⟨[.expect kind], rfl⟩

theorem IsReachable.moved {tokens : List Token} {session : Session}
    (reachable : session.IsReachable tokens) (moves : List Move) :
    (session.moved moves).IsReachable tokens := by
  obtain ⟨text, limit, before, rfl⟩ := reachable
  exact ⟨text, limit, before ++ moves, (moved_append _ before moves).symm⟩

/-- Moves lead to every session that a history leaves. -/
theorem isReachable_after (expression : String) (limit : Limit)
    (history : List Step) :
    ((ofText expression limit).after history).IsReachable (tokenize expression) := by
  have start : (ofText expression limit).IsReachable (tokenize expression) :=
    ⟨expression, limit, [], (ofTokens_tokenize expression limit).symm⟩
  have serves := serves_ofText expression limit
  generalize ofText expression limit = session at start serves
  induction history generalizing session with
  | nil => exact start
  | cons step others ih =>
      obtain ⟨moves, went⟩ := exists_moves_step serves.noEnd step
      have next : (session.step step).2.IsReachable (tokenize expression) := by
        rw [went]
        exact start.moved moves
      exact ih _ next (serves.step step)

end Session

end Criteria
