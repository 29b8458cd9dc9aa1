import Criteria.Proofs.Cursor.Search
import Criteria.Proofs.Walk.Follows

/-!
# What a course does

Whatever a walk is made of, it closes every level that it opened unless it stops,
and it forgets no level that was counted as the deepest.  So the deepest level at
the end of a walk bounds every level that is open in the midst of it, and a level
is only closed where one is open.
-/

namespace Criteria

namespace Walk

open Session (Act Moment)

variable {α β : Type} {limit : Limit} {tokenCount : Nat}

theorem bind_cases (first : Walk α) (next : α → Walk β) (session : Session) :
    (∃ diagnostic after, first session = (.error diagnostic, after) ∧
      (first >>= next) session = (.error diagnostic, after)) ∨
    (∃ value after, first session = (.ok value, after) ∧
      (first >>= next) session = next value after) := by
  cases outcome : first session with
  | mk result after =>
      cases result with
      | error diagnostic =>
          exact .inl ⟨diagnostic, after, rfl, bind_of_error next outcome⟩
      | ok value => exact .inr ⟨value, after, rfl, bind_of_ok next outcome⟩

theorem session_expect_cases (kind : Kind) (session : Session) :
    (kind.accepts session.cursor.lookaheadKind ∧
      expect kind session =
        (.ok (), { session with cursor := session.cursor.advance })) ∨
    (kind.accepts session.cursor.lookaheadKind = false ∧
      expect kind session =
        (.error (session.diagnose (.expected (.kind kind))), session)) := by
  unfold expect Session.expect
  cases accepted : kind.accepts session.cursor.lookaheadKind with
  | true => exact .inl ⟨rfl, rfl⟩
  | false => exact .inr ⟨rfl, rfl⟩

/-- A walk one level deeper is refused the level, or stops and leaves the level
open, or closes it again. -/
theorem deepen_cases (walk : Walk α) (session : Session) :
    (session.limit.allows session.deeper.openLevels = false ∧
      deepen walk session =
        (.error (session.deeper.diagnose .tooDeep), session.deeper)) ∨
    (session.limit.allows session.deeper.openLevels ∧
      ∃ diagnostic after, walk session.deeper = (.error diagnostic, after) ∧
        deepen walk session = (.error diagnostic, after)) ∨
    (session.limit.allows session.deeper.openLevels ∧
      ∃ value after, walk session.deeper = (.ok value, after) ∧
        deepen walk session = (.ok value, after.shallower)) := by
  cases allowed : session.limit.allows session.deeper.openLevels with
  | false =>
      have entered : enter session =
          (.error (session.deeper.diagnose .tooDeep), session.deeper) := by
        rw [enter]
        simp only [allowed, Bool.false_eq_true, if_false]
      exact .inl ⟨rfl, bind_of_error _ entered⟩
  | true =>
      have entered : enter session = (.ok (), session.deeper) := by
        rw [enter]
        exact if_pos allowed
      right
      rw [deepen, bind_of_ok _ entered]
      rcases bind_cases walk (fun value => do leave; return value)
        session.deeper with
        ⟨diagnostic, after, stopped, ended⟩ | ⟨value, after, went, ended⟩
      · exact .inl ⟨rfl, diagnostic, after, stopped, ended⟩
      · exact .inr ⟨rfl, value, after, went, ended⟩

namespace Course

variable {walk : Walk α}

/-- A walk that succeeds leaves as many levels open as there were. -/
theorem openLevels_of_ok (course : Course walk) {session last : Session}
    {value : α} (succeeded : walk session = (.ok value, last)) :
    last.openLevels = session.openLevels := by
  induction course generalizing session last with
  | pure _ | look _ | seekGroup | seekForm =>
      cases succeeded
      rfl
  | refuse _ => cases succeeded
  | expect kind =>
      rcases session_expect_cases kind session with ⟨-, went⟩ | ⟨-, stopped⟩
      · rw [went] at succeeded
        cases succeeded
        rfl
      · rw [stopped] at succeeded
        cases succeeded
  | @bind _ _ first next courseFirst courseNext ihFirst ihNext =>
      rcases bind_cases first next session with
        ⟨_, _, -, ended⟩ | ⟨between, after, went, ended⟩
      · rw [ended] at succeeded
        cases succeeded
      · rw [ended] at succeeded
        rw [ihNext between succeeded, ihFirst went]
  | @deepen _ walk inner ih =>
      rcases deepen_cases walk session with
        ⟨-, ended⟩ | ⟨-, _, _, -, ended⟩ | ⟨-, between, after, went, ended⟩
      · rw [ended] at succeeded
        cases succeeded
      · rw [ended] at succeeded
        cases succeeded
      · rw [ended] at succeeded
        cases succeeded
        rw [Session.shallower, ih () went]
        exact Nat.add_sub_cancel _ 1

/-- No walk forgets a level that was counted as the deepest. -/
theorem deepest_le (course : Course walk) (session : Session) :
    session.deepest ≤ (walk session).2.deepest := by
  induction course generalizing session with
  | pure _ | look _ | refuse _ | seekGroup | seekForm => exact Nat.le_refl _
  | expect kind =>
      rcases session_expect_cases kind session with ⟨-, went⟩ | ⟨-, stopped⟩
      · exact Nat.le_of_eq (congrArg (·.2.deepest) went.symm)
      · exact Nat.le_of_eq (congrArg (·.2.deepest) stopped.symm)
  | @bind _ _ first next courseFirst courseNext ihFirst ihNext =>
      have early := ihFirst session
      rcases bind_cases first next session with
        ⟨_, after, stopped, ended⟩ | ⟨value, after, went, ended⟩
      · rw [stopped] at early
        rw [ended]
        exact early
      · rw [went] at early
        rw [ended]
        exact Nat.le_trans early (ihNext value after)
  | @deepen _ walk inner ih =>
      have entered : session.deepest ≤ session.deeper.deepest :=
        Nat.le_max_left _ _
      have within := Nat.le_trans entered (ih () session.deeper)
      rcases deepen_cases walk session with
        ⟨-, ended⟩ | ⟨-, _, after, stopped, ended⟩ | ⟨-, _, after, went, ended⟩
      · rw [ended]
        exact entered
      · rw [stopped] at within
        rw [ended]
        exact within
      · rw [went] at within
        rw [ended]
        exact within

section Acts

variable {first : Walk α} {next : α → Walk β} (courseFirst : Course first)
  (courseNext : ∀ value, Course (next value)) (inner : Unit → Course walk)
  {session after : Session} {value : α} {diagnostic : Diagnostic}

theorem acts_bind_of_error (stopped : first session = (.error diagnostic, after)) :
    (courseFirst.bind courseNext).acts session = courseFirst.acts session := by
  rw [acts, stopped, List.append_nil]

theorem acts_bind_of_ok (went : first session = (.ok value, after)) :
    (courseFirst.bind courseNext).acts session =
      courseFirst.acts session ++ (courseNext value).acts after := by
  rw [acts, went]

theorem acts_deepen_of_refused
    (refused : session.limit.allows session.deeper.openLevels = false) :
    (Course.deepen inner).acts session = [.enter] := by
  rw [acts, refused]
  rfl

theorem acts_deepen_of_error
    (allowed : session.limit.allows session.deeper.openLevels)
    (stopped : walk session.deeper = (.error diagnostic, after)) :
    (Course.deepen inner).acts session =
      .enter :: (inner ()).acts session.deeper := by
  rw [acts, if_pos allowed, stopped, List.append_nil]

theorem acts_deepen_of_ok
    (allowed : session.limit.allows session.deeper.openLevels)
    (went : walk session.deeper = (.ok value, after)) :
    (Course.deepen inner).acts session =
      .enter :: ((inner ()).acts session.deeper ++ [.leave]) := by
  rw [acts, if_pos allowed, went]

end Acts

/-- The acts of a walk leave the session that the walk leaves. -/
theorem session_acted (course : Course walk) (moment : Moment) :
    (moment.acted (course.acts moment.session)).session =
      (walk moment.session).2 := by
  induction course generalizing moment with
  | pure _ | look _ | refuse _ => rfl
  | expect kind =>
      rcases session_expect_cases kind moment.session with
        ⟨accepted, went⟩ | ⟨refused, stopped⟩
      · rw [acts, if_pos accepted, went]
        rfl
      · rw [acts, if_neg (Bool.not_eq_true _ ▸ refused), stopped]
        rfl
  | seekGroup => exact Cursor.session_acted_groupActs moment
  | seekForm =>
      rw [acts, Cursor.session_acted_cursor, Cursor.run_formSteps]
      rfl
  | @bind _ _ first next courseFirst courseNext ihFirst ihNext =>
      have early := ihFirst moment
      rcases bind_cases first next moment.session with
        ⟨_, after, stopped, ended⟩ | ⟨value, after, went, ended⟩
      · rw [stopped] at early
        rw [acts_bind_of_error _ _ stopped, ended]
        exact early
      · rw [went] at early
        have late := ihNext value (moment.acted (courseFirst.acts moment.session))
        rw [early] at late
        rw [acts_bind_of_ok _ _ went, Moment.acted_append, ended]
        exact late
  | @deepen _ walk inner ih =>
      have within := ih () (moment.act .enter)
      rcases deepen_cases walk moment.session with
        ⟨refused, ended⟩ | ⟨allowed, _, after, stopped, ended⟩ |
          ⟨allowed, _, after, went, ended⟩
      · rw [acts_deepen_of_refused _ refused, ended]
        rfl
      · rw [acts_deepen_of_error _ allowed stopped, ended]
        exact within.trans (congrArg Prod.snd stopped)
      · rw [acts_deepen_of_ok _ allowed went, ended]
        have before := within.trans (congrArg Prod.snd went)
        change ((moment.act .enter).acted
          ((inner ()).acts moment.session.deeper ++ [.leave])).session = _
        rw [Moment.acted_append]
        exact congrArg Session.shallower before

theorem admitsAll_expect (kind : Kind) (moment : Moment) :
    moment.AdmitsAll limit tokenCount
      ((Course.expect kind).acts moment.session) := by
  rw [acts]
  split
  · exact ⟨trivial, trivial⟩
  · exact trivial

/-- If the deepest level at its end is within reach, every act of a walk is
admitted. -/
theorem admitsAll (course : Course walk) (moment : Moment)
    (inBounds : moment.session.cursor.InBounds tokenCount)
    (fits : (walk moment.session).2.deepest ≤ limit.reach tokenCount) :
    moment.AdmitsAll limit tokenCount (course.acts moment.session) := by
  induction course generalizing moment with
  | pure _ | look _ | refuse _ => exact trivial
  | expect kind => exact admitsAll_expect kind moment
  | seekGroup => exact Cursor.admitsAll_groupActs moment inBounds
  | seekForm => exact Moment.admitsAll_cursor moment _
  | @bind _ _ first next courseFirst courseNext ihFirst ihNext =>
      rcases bind_cases first next moment.session with
        ⟨_, after, stopped, ended⟩ | ⟨value, after, went, ended⟩
      · rw [ended, ← congrArg Prod.snd stopped] at fits
        rw [acts_bind_of_error _ _ stopped]
        exact ihFirst moment inBounds fits
      · rw [ended] at fits
        have fitsFirst : (first moment.session).2.deepest ≤
            limit.reach tokenCount := by
          rw [went]
          exact Nat.le_trans ((courseNext value).deepest_le after) fits
        have early : (moment.acted (courseFirst.acts moment.session)).session =
            after :=
          (courseFirst.session_acted moment).trans (congrArg Prod.snd went)
        have late := ihNext value (moment.acted (courseFirst.acts moment.session))
          (Moment.inBounds_cursor_acted inBounds _)
        rw [early] at late
        rw [acts_bind_of_ok _ _ went, Moment.admitsAll_append]
        exact ⟨ihFirst moment inBounds fitsFirst, late fits⟩
  | @deepen _ walk inner ih =>
      have higher : moment.session.openLevels < moment.session.deeper.deepest :=
        Nat.le_max_right _ _
      have opened (within : (walk moment.session.deeper).2.deepest ≤
          limit.reach tokenCount) : moment.Admits limit tokenCount .enter :=
        Nat.lt_of_lt_of_le higher
          (Nat.le_trans ((inner ()).deepest_le moment.session.deeper) within)
      rcases deepen_cases walk moment.session with
        ⟨refused, ended⟩ | ⟨allowed, _, after, stopped, ended⟩ |
          ⟨allowed, _, after, went, ended⟩
      · rw [ended] at fits
        rw [acts_deepen_of_refused _ refused]
        exact ⟨Nat.lt_of_lt_of_le higher fits, trivial⟩
      · rw [ended, ← congrArg Prod.snd stopped] at fits
        rw [acts_deepen_of_error _ allowed stopped]
        exact ⟨opened fits, ih () (moment.act .enter) inBounds fits⟩
      · rw [ended] at fits
        have within : (walk moment.session.deeper).2.deepest ≤
            limit.reach tokenCount := by
          rw [went]
          exact fits
        have before : ((moment.act .enter).acted
            ((inner ()).acts moment.session.deeper)).session = after :=
          ((inner ()).session_acted (moment.act .enter)).trans
            (congrArg Prod.snd went)
        -- The level that was entered is open, since all others were closed.
        have isOpen : 0 < after.openLevels := by
          rw [(inner ()).openLevels_of_ok went]
          exact Nat.succ_pos _
        rw [acts_deepen_of_ok _ allowed went]
        refine ⟨opened within, Moment.admitsAll_append.mpr
          ⟨ih () (moment.act .enter) inBounds within, ?_, trivial⟩⟩
        rw [← before] at isOpen
        exact isOpen

end Course

end Walk

end Criteria
