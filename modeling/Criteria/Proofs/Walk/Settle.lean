import Criteria.Proofs.Cursor.Lookahead
import Criteria.Proofs.Session.Reuse

/-!
# What a run leaves of a session

A session settles on a run when it moves its cursor over the tokens that the run
consumed and counts the levels that it opened.  Settling on two runs, one behind
the other, comes to the same as settling on both at once.
-/

namespace Criteria

namespace Cursor

variable {cursor : Cursor}

theorem pending_advance (cursor : Cursor) :
    cursor.advance.pending = cursor.upcoming := by
  rw [pending, lookahead_advance, upcoming_advance]
  cases cursor.upcoming <;> rfl

theorem live_advance
    (noEnd : ∀ token ∈ cursor.tokens.toList, token.kind ≠ .endOfInput) :
    cursor.advance.Live where
  peeked := peeked_advance cursor
  atEnd := by
    intro none
    rw [lookahead_advance, List.head?_eq_none_iff] at none
    rw [upcoming_advance, none, List.tail_nil]
  noEnd := by
    rw [tokens_advance]
    exact noEnd

theorem Live.advanceBy (live : cursor.Live) (count : Nat) :
    (cursor.advanceBy count).Live ∧
      (cursor.advanceBy count).pending = cursor.pending.drop count := by
  induction count generalizing cursor with
  | zero => exact ⟨live, rfl⟩
  | succ count ih =>
      have next := pending_advance cursor
      rw [← live.tail_pending] at next
      have later := ih (live_advance live.noEnd)
      rw [next, List.drop_tail] at later
      exact later

end Cursor

namespace Session

variable {α β : Type} {session : Session}

/-- The cursor is live, and the deepest level is one that was counted. -/
structure Live (session : Session) : Prop where
  cursor : session.cursor.Live
  counted : session.openLevels ≤ session.deepest

/-- So many levels can still be opened before the limit is reached. -/
def Affords (session : Session) (allowance : Nat) : Prop :=
  ∀ count, session.limit = .levels count →
    session.openLevels + allowance = count

/-- The session behind a run on its pending tokens. -/
def settled (session : Session) (run : Run α) : Session :=
  { session with
    cursor := session.cursor.advanceBy
      (session.cursor.pending.length - run.rest.length)
    openLevels := session.openLevels + run.unclosed
    deepest := max session.deepest (session.openLevels + run.height) }

/-- What a run on the pending tokens of a session comes to. -/
def settle (session : Session) (run : Run α) : Except Diagnostic α × Session :=
  match run.result with
  | .ok value => (.ok value, session.settled run)
  | .error fault =>
      (.error ((session.settled run).diagnose fault), session.settled run)

end Session

/-- A run that goes on behind another one. -/
def Run.behind {α β : Type} (next : Run β) (first : Run α) : Run β :=
  { next with
    openings := first.openings ++ next.openings
    unclosed := first.unclosed + next.unclosed }

theorem Run.height_behind {α β : Type} (next : Run β) (first : Run α) :
    (next.behind first).height = max first.height next.height := by
  unfold height behind
  generalize first.openings = openings
  induction openings with
  | nil => simp
  | cons opening others ih =>
      simp only [List.cons_append, List.foldr_cons] at ih ⊢
      rw [ih, Nat.max_assoc]

theorem Rule.height_deepen {α : Type} (rule : Rule α) (tokens : List Token) :
    (deepen rule tokens).height = (rule tokens).height + 1 := by
  simp only [Run.height, deepen, List.foldr_cons, List.foldr_map, Opening.raise]
  induction (rule tokens).openings with
  | nil => rfl
  | cons first others ih =>
      simp only [List.foldr_cons]
      omega

namespace Session

variable {α β : Type} {session : Session}

/-- A session with the counters of levels as they are before a run. -/
theorem settled_of_flat {run : Run α} (live : session.Live)
    (openings : run.openings = []) (unclosed : run.unclosed = 0) :
    session.settled run =
      { session with
        cursor := session.cursor.advanceBy
          (session.cursor.pending.length - run.rest.length) } := by
  have height : run.height = 0 := by rw [Run.height, openings, List.foldr_nil]
  rw [settled, height, unclosed, Nat.add_zero, Nat.max_eq_left live.counted]

theorem settled_stay (live : session.Live)
    (result : Except Fault α) :
    session.settled ⟨result, session.cursor.pending, [], 0⟩ = session := by
  rw [settled_of_flat live rfl rfl]
  simp only [Nat.sub_self, Cursor.advanceBy]

theorem settled_step {token : Token} {rest : List Token}
    (live : session.Live) (pending : session.cursor.pending = token :: rest)
    (value : α) :
    session.settled ⟨.ok value, rest, [], 0⟩ =
      { session with cursor := session.cursor.advance } := by
  have one : session.cursor.pending.length - rest.length = 1 := by
    rw [pending, List.length_cons]
    omega
  rw [settled_of_flat live rfl rfl]
  simp only [one, Cursor.advanceBy]

section Settled

variable {run : Run α} (suffix : run.rest <:+ session.cursor.pending)

include suffix

theorem pending_settled (live : session.Live) :
    (session.settled run).cursor.pending = run.rest := by
  rw [settled, (live.cursor.advanceBy _).2]
  exact (List.suffix_iff_eq_drop.mp suffix).symm

theorem settle_settled (live : session.Live) (closed : run.unclosed = 0)
    (next : Run β) (further : next.rest <:+ run.rest) :
    (session.settled run).settle next = session.settle (next.behind run) := by
  have same : (session.settled run).settled next =
      session.settled (next.behind run) := by
    -- The second run starts where the first one ended, so the ways add up.
    have place := pending_settled suffix live
    have shorter := further.length_le
    have longer := suffix.length_le
    have count : session.cursor.pending.length - next.rest.length =
        (session.cursor.pending.length - run.rest.length) +
          (run.rest.length - next.rest.length) := by
      omega
    unfold settled at place ⊢
    rw [place, Run.height_behind, closed]
    simp only [Run.behind, closed, count, Cursor.advanceBy_add, Nat.add_zero,
      Nat.zero_add, Nat.max_assoc, Nat.add_max_add_left]
  unfold settle
  rw [same]
  rfl

end Settled

theorem live_settled {run : Run α} (live : session.Live)
    (closed : run.unclosed = 0) : (session.settled run).Live where
  cursor := (live.cursor.advanceBy _).1
  counted := by
    simp only [settled, closed, Nat.add_zero]
    exact Nat.le_trans live.counted (Nat.le_max_left _ _)

theorem affords_settled {run : Run α} {allowance : Nat}
    (affords : session.Affords allowance) (closed : run.unclosed = 0) :
    (session.settled run).Affords allowance := by
  intro count limit
  have levels := affords count limit
  simp only [settled, closed]
  exact levels

end Session

namespace Rule

variable {α β : Type}

/-- The rule consumes tokens from the front, and it closes the levels that it
opened unless it finds a fault. -/
structure Steady (rule : Rule α) : Prop where
  suffix : ∀ tokens, (rule tokens).rest <:+ tokens
  closed : ∀ tokens value, (rule tokens).result = .ok value →
    (rule tokens).unclosed = 0

theorem Flat.steady {rule : Rule α} (flat : rule.Flat) : rule.Steady where
  suffix tokens := (flat tokens).suffix
  closed tokens _ _ := (flat tokens).unclosed

theorem steady_bind {first : Rule α} {next : α → Rule β} (isFirst : first.Steady)
    (isNext : ∀ value, (next value).Steady) : (first >>= next).Steady where
  suffix := by
    intro tokens
    cases outcome : (first tokens).result with
    | error fault =>
        rw [bind_of_error next outcome]
        exact isFirst.suffix tokens
    | ok value =>
        rw [bind_of_ok next outcome]
        exact ((isNext value).suffix _).trans (isFirst.suffix tokens)
  closed := by
    intro tokens last succeeded
    cases outcome : (first tokens).result with
    | error fault =>
        rw [bind_of_error next outcome] at succeeded
        cases succeeded
    | ok value =>
        rw [bind_of_ok next outcome] at succeeded ⊢
        have closedNext := (isNext value).closed _ last succeeded
        simp only [isFirst.closed tokens value outcome, closedNext]

end Rule

namespace Session

variable {α β : Type} {session : Session} {first : Rule α} {next : α → Rule β}

theorem settle_bind_of_error {fault : Fault}
    (failed : (first session.cursor.pending).result = .error fault) :
    session.settle ((first >>= next) session.cursor.pending) =
      (.error ((session.settled (first session.cursor.pending)).diagnose fault),
        session.settled (first session.cursor.pending)) := by
  rw [Rule.bind_of_error next failed]
  rfl

theorem settle_bind_of_ok {value : α} (live : session.Live)
    (isFirst : first.Steady) (isNext : (next value).Steady)
    (succeeded : (first session.cursor.pending).result = .ok value) :
    session.settle ((first >>= next) session.cursor.pending) =
      (session.settled (first session.cursor.pending)).settle
        (next value
          (session.settled (first session.cursor.pending)).cursor.pending) := by
  have suffix := isFirst.suffix session.cursor.pending
  have closed := isFirst.closed _ value succeeded
  rw [Rule.bind_of_ok next succeeded, pending_settled suffix live,
    settle_settled suffix live closed _ (isNext.suffix _)]
  rfl

end Session

end Criteria
