import Criteria.Proofs.Parse.RoundTrip
import Criteria.Proofs.Walk.Course
import Criteria.Proofs.Walk.Reading

/-!
# No position and no counter overflows

Whatever is done with a session and its cursor, every state that the session
comes through keeps the bounds: its positions are positions of the tokens, and
its counters count no further than the limit and the tokens let them.
-/

namespace Criteria

namespace Session

variable {expression : String} {limit : Limit} {session : Session}
  {moment : Moment}

/-- A reading goes no deeper than the limit and the tokens let it. -/
theorem Serves.deepest_parse_le (serves : session.Serves expression limit) :
    session.parse.2.deepest ≤ limit.reach (tokenize expression).length := by
  have few : session.cursor.upcoming.length ≤ (tokenize expression).length := by
    rw [serves.upcoming, List.length_drop]
    exact Nat.sub_le _ _
  rw [deepest_parse, Run.height_le_iff]
  intro opening member
  have orderly := (Rule.orderly_filter .standard
    (session.limit.allowance session.cursor.upcoming.length)).behindParen
      session.cursor.upcoming
  have byLimit := orderly.bounded opening member
  have byTokens := Rule.level_le_length member
  have allowed := limit.allowance_le few
  rw [serves.limit] at byLimit
  rw [Limit.reach]
  omega

/-- The acts of an operation leave what the operation leaves. -/
theorem session_acted_acts (noEnd : moment.session.NoEnd)
    (operation : Operation) :
    (moment.acted (moment.session.acts operation)).session =
      moment.session.operate operation := by
  cases operation with
  | cursor step => rfl
  | session step =>
      cases step with
      | parse =>
          have walked := congrArg Prod.snd (walk_eq_parse noEnd)
          exact (Walk.Course.session_acted _
            ((moment.act .restart).act (.cursor .advance))).trans walked
      | free deep position =>
          cases deep with
          | true => rfl
          | false => rfl
      | expect kind => exact (Walk.Course.expect kind).session_acted moment

/-- The session reads the given input within the given limit, and its cursor is
in bounds. -/
structure ServesInBounds (expression : String) (limit : Limit)
    (session : Session) : Prop extends session.Serves expression limit where
  cursorInBounds : session.cursor.InBounds (tokenize expression).length

namespace ServesInBounds

theorem ofText (expression : String) (limit : Limit) :
    (Session.ofText expression limit).ServesInBounds expression limit where
  toServes := serves_ofText expression limit
  cursorInBounds := .ofText expression

theorem operate (serves : session.ServesInBounds expression limit)
    (operation : Operation) :
    (session.operate operation).ServesInBounds expression limit where
  toServes := by
    cases operation with
    | session step => exact serves.toServes.step step
    | cursor step =>
        constructor
        · exact (Cursor.text_step _ _).trans serves.text
        · exact (Cursor.tokens_step _ _).trans serves.tokens
        · exact serves.limit
        · exact (serves.cursorInBounds.step step).position
  cursorInBounds := by
    have leaves : ((Moment.ofSession session).acted
        (session.acts operation)).session = session.operate operation :=
      session_acted_acts serves.toServes.noEnd operation
    rw [← leaves]
    exact Moment.inBounds_cursor_acted serves.cursorInBounds _

theorem operated (serves : session.ServesInBounds expression limit)
    (run : List Operation) :
    (session.operated run).ServesInBounds expression limit := by
  induction run generalizing session with
  | nil => exact serves
  | cons operation others ih => exact ih (serves.operate operation)

/-- Every act of an operation is admitted. -/
theorem admitsAll (serves : moment.session.ServesInBounds expression limit)
    (operation : Operation) :
    moment.AdmitsAll limit (tokenize expression).length
      (moment.session.acts operation) := by
  cases operation with
  | cursor step => exact ⟨trivial, trivial⟩
  | session step =>
      cases step with
      | parse =>
          have fits := serves.toServes.deepest_parse_le
          rw [← walk_eq_parse serves.toServes.noEnd] at fits
          exact ⟨trivial, trivial, Walk.Course.admitsAll _
            ((moment.act .restart).act (.cursor .advance))
            serves.cursorInBounds.advance fits⟩
      | free deep position =>
          cases deep with
          | true => exact ⟨trivial, trivial, trivial, trivial, trivial⟩
          | false => exact ⟨trivial, trivial, trivial, trivial⟩
      | expect kind => exact Walk.Course.admitsAll_expect kind moment

/-- The acts of a run leave what the run leaves, and all of them are admitted. -/
theorem actsAlong (serves : moment.session.ServesInBounds expression limit)
    (run : List Operation) :
    (moment.acted (moment.session.actsAlong run)).session =
        moment.session.operated run ∧
      moment.AdmitsAll limit (tokenize expression).length
        (moment.session.actsAlong run) := by
  induction run generalizing moment with
  | nil => exact ⟨rfl, trivial⟩
  | cons operation others ih =>
      have left := session_acted_acts serves.toServes.noEnd operation
      have next := serves.operate operation
      rw [← left] at next
      obtain ⟨leaves, admits⟩ := ih next
      rw [left] at leaves admits
      rw [Session.actsAlong, Moment.acted_append, Moment.admitsAll_append]
      exact ⟨leaves, serves.admitsAll operation, admits⟩

end ServesInBounds

/-- A reading that succeeds leaves no level open. -/
theorem openLevels_parse_of_ok (noEnd : session.NoEnd) {tree : Expr}
    (succeeded : session.parse.1 = .ok tree) : session.parse.2.openLevels = 0 := by
  rw [← walk_eq_parse noEnd] at succeeded ⊢
  exact (Walk.Course.filter _).openLevels_of_ok (Prod.ext succeeded rfl)

/-- Let operations of a session and of its cursor be carried out one after the
other, with any limit and any positions.  Their acts leave the session that they
leave.  In front of every act and behind the last one all positions and counters
are in bounds, an act takes one only from a number that is not zero, and with
fewer than 2^62 tokens no sum is too large for 64 bits.  And whenever a reading
succeeds, no level is left open.  A cursor on its own is the case of cursor
operations only. -/
theorem run_within_bounds (expression : String) (limit : Limit)
    (run : List Operation) :
    let tokenCount := (tokenize expression).length
    let session := ofText expression limit
    let acts := session.actsAlong run
    ((Moment.ofSession session).acted acts).session = session.operated run ∧
    (∀ done left, acts = done ++ left →
      let moment := (Moment.ofSession session).acted done
      let cursor := moment.session.cursor
      moment.InBounds limit tokenCount ∧
        cursor.position + cursor.peeked ≤ 2 * tokenCount ∧
        (∀ act ∈ left.head?, ∀ number ∈ act.lowered moment, 0 < number) ∧
        (tokenCount ≤ Limit.maximum →
          moment.session.openLevels ≤ min limit.toNat tokenCount + 1) ∧
        (tokenCount < 0x4000000000000000 →
          ∀ act ∈ left.head?, ∀ sum ∈ act.sums moment,
            (UInt64.ofNat sum.1 + UInt64.ofNat sum.2).toNat =
              sum.1 + sum.2)) ∧
    (∀ tree, (session.operated run).parse.1 = .ok tree →
      (session.operated run).parse.2.openLevels = 0) := by
  intro tokenCount session acts
  have serves := ServesInBounds.ofText expression limit
  obtain ⟨leaves, admits⟩ :=
    @ServesInBounds.actsAlong _ _ (.ofSession session) serves run
  refine ⟨leaves, ?_, ?_⟩
  · intro done left split moment cursor
    have admits : (Moment.ofSession session).AdmitsAll limit tokenCount
        (done ++ left) := split ▸ admits
    obtain ⟨inBounds, admitsNext⟩ :=
      (Moment.InBounds.ofText expression limit).acted admits
    have position : cursor.position ≤ tokenCount := inBounds.cursor.position
    have peeked : cursor.peeked ≤ tokenCount := inBounds.cursor.peeked
    refine ⟨inBounds, by omega, ?_, ?_, ?_⟩
    · intro act next
      exact (admitsNext act next).lowered_pos
    · intro representable
      rw [← Limit.reach_eq representable]
      exact inBounds.openLevels
    · intro few act _ sum member
      have small := inBounds.sum_le sum member
      exact toNat_add_words (by omega)
  · intro tree succeeded
    exact openLevels_parse_of_ok (serves.operated run).toServes.noEnd succeeded

/-- The limit refuses the group, but behind `NOT` there is a level to spare. -/
theorem run_within_bounds_of_refused_group :
    let session := ofText "NOT (a = 1)" (.levels 2)
    let run : List Operation := [.session .parse, .session (.free false 1)]
    let acts := session.actsAlong run
    let searching := (Moment.ofSession session).acted (acts.take 13)
    let negating := (Moment.ofSession session).acted (acts.take 4)
    (tokenize "NOT (a = 1)").length < 0x4000000000000000 ∧
      acts[13]? = some (.count .closeParen) ∧ 0 < searching.unmatched ∧
      acts[4]? = some .enter ∧ negating.session.openLevels ≤ 3 ∧
      (UInt64.ofNat negating.session.openLevels + UInt64.ofNat 1).toNat =
        negating.session.openLevels + 1 ∧
      (∃ tree, (session.operated run).parse.1 = .ok tree) ∧
      (session.operated run).parse.2.openLevels = 0 := by
  intro session run acts searching negating
  have few : (tokenize "NOT (a = 1)").length < 0x4000000000000000 := by
    decide +kernel
  have representable : (tokenize "NOT (a = 1)").length ≤ Limit.maximum := by
    decide +kernel
  have counts : acts[13]? = some (.count .closeParen) := by decide +kernel
  have enters : acts[4]? = some .enter := by decide +kernel
  have parsed : (session.operated run).parse.1 = .ok (.filter (.group
      (.comparison (.field ⟨"a"⟩) .eq (.literal ⟨.numeric, "1"⟩)))) := by
    apply eq_ok_of_toOption
    decide +kernel
  obtain ⟨-, bounds, closed⟩ :=
    run_within_bounds "NOT (a = 1)" (.levels 2) run
  have split (count : Nat) : acts = acts.take count ++ acts.drop count :=
    (List.take_append_drop count acts).symm
  obtain ⟨-, -, lowered, -, -⟩ := bounds _ _ (split 13)
  obtain ⟨-, -, -, levels, fits⟩ := bounds _ _ (split 4)
  have searches := lowered (.count .closeParen)
    (List.head?_drop.trans counts) searching.unmatched List.mem_cons_self
  have bounded : negating.session.openLevels ≤ 3 :=
    Nat.le_trans (levels representable) (by decide +kernel)
  have adds := fits few .enter (List.head?_drop.trans enters)
    (negating.session.openLevels, 1) List.mem_cons_self
  exact ⟨few, counts, searches, enters, bounded, adds, ⟨_, parsed⟩,
    closed _ parsed⟩

/-- A cursor that was moved on while it looked ahead reaches the bound of the
position and the looks. -/
example :
    let cursor := ((Cursor.ofText "a").run [.peek, .resetPosition 1]).2
    cursor.position + cursor.peeked = 2 * (tokenize "a").length := by
  decide +kernel

end Session

end Criteria
