import Criteria.Proofs.Walk.Settle
import Criteria.Walk.Condition

/-!
# Walks follow rules

A walk follows a rule when, from any live session, it comes to what the rule
comes to on the pending tokens: with the same value or the diagnostic of the
same fault, with the cursor moved over the tokens that the rule consumed, and
with the levels counted that it opened.  Every way of combining walks keeps
this.
-/

namespace Criteria

namespace Walk

variable {α β : Type}

theorem bind_of_ok {session after : Session} {first : Walk α} {value : α}
    (next : α → Walk β) (went : first session = (.ok value, after)) :
    (first >>= next) session = next value after := by
  change Walk.bind first next session = _
  rw [Walk.bind, went]

theorem bind_of_error {session after : Session} {first : Walk α}
    {diagnostic : Diagnostic} (next : α → Walk β)
    (stopped : first session = (.error diagnostic, after)) :
    (first >>= next) session = (.error diagnostic, after) := by
  change Walk.bind first next session = _
  rw [Walk.bind, stopped]

/-- From any live session with so many levels left, the walk comes to what the
rule comes to on the pending tokens. -/
structure Follows (allowance : Nat) (walk : Walk α) (rule : Rule α) : Prop
    extends rule.Steady where
  settles : ∀ session : Session, session.Live → session.Affords allowance →
    walk session = session.settle (rule session.cursor.pending)

variable {allowance : Nat}

theorem follows_bind {first : Walk α} {ruleFirst : Rule α}
    {next : α → Walk β} {ruleNext : α → Rule β}
    (isFirst : Follows allowance first ruleFirst)
    (isNext : ∀ value, Follows allowance (next value) (ruleNext value)) :
    Follows allowance (first >>= next) (ruleFirst >>= ruleNext) where
  toSteady := Rule.steady_bind isFirst.toSteady fun value =>
    (isNext value).toSteady
  settles := by
    intro session live affords
    have walks := isFirst.settles session live affords
    rw [Session.settle] at walks
    cases outcome : (ruleFirst session.cursor.pending).result with
    | error fault =>
        rw [outcome] at walks
        rw [bind_of_error next walks, Session.settle_bind_of_error outcome]
    | ok value =>
        have closed := isFirst.closed _ value outcome
        rw [outcome] at walks
        rw [bind_of_ok next walks, Session.settle_bind_of_ok live
          isFirst.toSteady (isNext value).toSteady outcome]
        exact (isNext value).settles _ (Session.live_settled live closed)
          (Session.affords_settled affords closed)

/-- A question that is answered from the pending tokens. -/
theorem follows_ask {walk : Walk α} {question : List Token → α}
    (answers : ∀ session : Session, session.Live →
      walk session = (.ok (question session.cursor.pending), session)) :
    Follows allowance walk (Rule.ask question) where
  toSteady := (Rule.flat_ask question).steady
  settles := by
    intro session live _
    rw [answers session live, Session.settle, Rule.ask, Session.settled_stay live]

theorem follows_pure (value : α) : Follows allowance (pure value) (pure value) :=
  follows_ask fun _ _ => rfl

theorem follows_upcoming :
    Follows allowance (look Cursor.lookaheadKind) Rule.upcoming :=
  follows_ask fun _ live => by rw [look, live.cursor.lookaheadKind]

theorem follows_scout {decide : Cursor → α × Cursor} {question : List Token → α}
    (decides : ∀ cursor : Cursor, cursor.Live →
      decide cursor = (question cursor.pending, cursor)) :
    Follows allowance (scout decide) (Rule.ask question) :=
  follows_ask fun _ live => by rw [scout, decides _ live.cursor]

theorem follows_refuse (fault : Fault) :
    Follows allowance (refuse fault : Walk α) (Rule.fail fault) where
  suffix _ := List.suffix_rfl
  closed _ _ _ := rfl
  settles := by
    intro session live _
    rw [Session.settle, Rule.fail]
    simp only [Session.settled_stay live]
    rfl

/-- A choice by the kind of the lookahead. -/
theorem follows_isNext {kind : Kind} {present absent : Walk α}
    {rulePresent ruleAbsent : Rule α}
    (isPresent : Follows allowance present rulePresent)
    (isAbsent : Follows allowance absent ruleAbsent) :
    Follows allowance
      (do if ← look fun cursor => cursor.isNext kind then present else absent)
      (do if (← Rule.upcoming) = kind then rulePresent else ruleAbsent) := by
  have asks : Follows allowance (look fun cursor => cursor.isNext kind)
      (Rule.ask fun tokens => decide (Token.headKind tokens = kind)) :=
    follows_ask fun _ live => by
      rw [look, Cursor.isNext, live.cursor.lookaheadKind]
  have same : (do if (← Rule.upcoming) = kind then rulePresent else ruleAbsent) =
      Rule.ask (fun tokens => decide (Token.headKind tokens = kind)) >>=
        fun found => if found then rulePresent else ruleAbsent := by
    funext tokens
    rw [Rule.bind_of_pass (Rule.upcoming_eq tokens),
      Rule.bind_of_pass (Rule.ask_eq _ tokens)]
    by_cases present : Token.headKind tokens = kind
    · simp [present]
    · simp [present]
  rw [same]
  apply follows_bind asks
  intro found
  cases found with
  | true => exact isPresent
  | false => exact isAbsent

/-- The lookahead is consumed by both or refused by both. -/
theorem expect_cases {session : Session} (live : session.Live) {kind : Kind}
    (inside : kind ≠ .endOfInput) :
    (∃ token rest, session.cursor.pending = token :: rest ∧
      expect kind session =
        (.ok (), { session with cursor := session.cursor.advance }) ∧
      Rule.expect kind session.cursor.pending = ⟨.ok token, rest, [], 0⟩) ∨
    (expect kind session =
        (.error (session.diagnose (.expected (.kind kind))), session) ∧
      Rule.expect kind session.cursor.pending =
        ⟨.error (.expected (.kind kind)), session.cursor.pending, [], 0⟩) := by
  have found := live.cursor.lookaheadKind
  cases pending : session.cursor.pending with
  | nil =>
      right
      rw [pending] at found
      have refused : kind.accepts .endOfInput = false := by
        revert inside
        cases kind <;> decide
      constructor
      · rw [expect, Session.expect, found, Token.headKind, refused]
        rfl
      · rfl
  | cons token rest =>
      rw [pending] at found
      have found : session.cursor.lookaheadKind = token.kind := found
      by_cases accepted : kind.accepts token.kind
      · left
        refine ⟨token, rest, rfl, ?_, ?_⟩
        · rw [expect, Session.expect, found, if_pos accepted]
        · rw [Rule.expect, if_pos accepted]
      · right
        constructor
        · rw [expect, Session.expect, found, if_neg accepted]
        · rw [Rule.expect, if_neg accepted]

/-- What goes on behind an expected token may use the token. -/
theorem follows_behind_expect {kind : Kind} (inside : kind ≠ .endOfInput)
    {next : Unit → Walk β} {ruleNext : Token → Rule β}
    (steady : ∀ token, (ruleNext token).Steady)
    (settles : ∀ (session : Session) (token : Token), session.Live →
      session.Affords allowance → session.cursor.current = some token →
      next () session = session.settle (ruleNext token session.cursor.pending)) :
    Follows allowance (expect kind >>= next) (Rule.expect kind >>= ruleNext) where
  toSteady := Rule.steady_bind (Rule.flat_expect kind).steady steady
  settles := by
    intro session live affords
    rcases expect_cases live inside with
      ⟨token, rest, pending, walks, reads⟩ | ⟨walks, reads⟩
    · have outcome : (Rule.expect kind session.cursor.pending).result = .ok token :=
        by rw [reads]
      have closed : (Rule.expect kind session.cursor.pending).unclosed = 0 := by
        rw [reads]
      have step : session.settled (Rule.expect kind session.cursor.pending) =
          { session with cursor := session.cursor.advance } := by
        rw [reads]
        exact Session.settled_step live pending token
      have stepLive := Session.live_settled live closed
      have stepAffords := Session.affords_settled affords closed
      rw [bind_of_ok next walks, Session.settle_bind_of_ok live
        (Rule.flat_expect kind).steady (steady token) outcome]
      rw [step] at stepLive stepAffords ⊢
      apply settles _ token stepLive stepAffords
      rw [Cursor.current_advance, ← live.cursor.head_pending, pending]
      rfl
    · have outcome : (Rule.expect kind session.cursor.pending).result =
          .error (.expected (.kind kind)) := by rw [reads]
      rw [bind_of_error next walks, Session.settle_bind_of_error outcome, reads,
        Session.settled_stay live]

theorem follows_expect_then {kind : Kind} (inside : kind ≠ .endOfInput)
    {next : Walk β} {ruleNext : Rule β}
    (isNext : Follows allowance next ruleNext) :
    Follows allowance (do expect kind; next)
      (do let _ ← Rule.expect kind; ruleNext) := by
  apply follows_behind_expect inside
  · exact fun _ => isNext.toSteady
  · intro session _ live affords _
    exact isNext.settles session live affords

theorem follows_take_then {kind : Kind} (inside : kind ≠ .endOfInput)
    {next : String → Walk β} {ruleNext : Token → Rule β}
    (isNext : ∀ token : Token,
      Follows allowance (next token.text) (ruleNext token)) :
    Follows allowance (do expect kind; next (← consumedText))
      (do ruleNext (← Rule.expect kind)) := by
  apply follows_behind_expect inside
  · exact fun token => (isNext token).toSteady
  · intro session token live affords current
    have text : consumedText session = (.ok token.text, session) := by
      rw [consumedText, look, current]
      rfl
    change (consumedText >>= next) session = _
    rw [bind_of_ok next text]
    exact (isNext token).settles session live affords

theorem optional_eq_expect {kind : Kind} (inside : kind ≠ .endOfInput) :
    Rule.optional kind =
      (do
        if (← Rule.upcoming) = kind then
          let _ ← Rule.expect kind
          return true
        else return false) := by
  funext tokens
  rw [Rule.bind_of_pass (Rule.upcoming_eq tokens)]
  cases tokens with
  | nil =>
      rw [if_neg (fun atEnd => inside atEnd.symm)]
      rfl
  | cons token rest =>
      by_cases isKind : token.kind = kind
      · have taken : Rule.expect kind (token :: rest) = ⟨.ok token, rest, [], 0⟩ :=
          if_pos (by simp [Kind.accepts, isKind])
        rw [Rule.optional_of_present isKind, Token.headKind_cons, if_pos isKind,
          Rule.bind_of_pass taken]
        rfl
      · have absent : Token.headKind (token :: rest) ≠ kind := isKind
        rw [Rule.optional_of_absent absent, if_neg absent]
        rfl

theorem follows_optional {kind : Kind} (inside : kind ≠ .endOfInput) :
    Follows allowance (optional kind) (Rule.optional kind) := by
  rw [optional_eq_expect inside]
  exact follows_isNext (follows_expect_then inside (follows_pure true))
    (follows_pure false)

theorem follows_finish : Follows allowance finish Rule.finish := by
  have same : Rule.finish =
      (do
        if (← Rule.ask List.head?).isSome then
          Rule.fail (.expected (.kind .endOfInput))) := by
    funext tokens
    cases tokens <;> rfl
  rw [same]
  have asks : Follows allowance (look Cursor.lookahead) (Rule.ask List.head?) :=
    follows_ask fun _ live => by rw [look, live.cursor.head_pending]
  apply follows_bind asks
  intro found
  cases found with
  | none => exact follows_pure ()
  | some token => exact follows_refuse _

theorem follows_sepBy {separator : Kind} (inside : separator ≠ .endOfInput)
    {item : Walk α} {ruleItem : Rule α}
    (isItem : Follows allowance item ruleItem) :
    Follows allowance (sepBy separator item) (Rule.sepBy separator ruleItem) := by
  have bounded (bound : Nat) : Follows allowance
      (sepByUpTo separator item bound)
      (Rule.sepByUpTo separator ruleItem bound) := by
    induction bound with
    | zero => exact follows_bind isItem fun last => follows_pure [last]
    | succ bound ih =>
        apply follows_bind isItem
        intro first
        apply follows_bind (follows_optional inside)
        intro found
        cases found with
        | true => exact follows_bind ih fun others => follows_pure (first :: others)
        | false => exact follows_pure [first]
  constructor
  · constructor
    · exact fun tokens => (bounded tokens.length).suffix tokens
    · exact fun tokens => (bounded tokens.length).closed tokens
  · exact fun session => (bounded session.cursor.pending.length).settles session

section Deepen

variable {session : Session}

theorem live_deeper (live : session.Live) : session.deeper.Live where
  cursor := live.cursor
  counted := Nat.le_max_right _ _

theorem affords_deeper (affords : session.Affords (allowance + 1)) :
    session.deeper.Affords allowance := by
  intro count limit
  have levels := affords count limit
  simp only [Session.deeper]
  omega

theorem enter_of_affords (affords : session.Affords (allowance + 1)) :
    enter session = (.ok (), session.deeper) := by
  have allowed : session.limit.allows session.deeper.openLevels := by
    cases limit : session.limit with
    | unbounded => rfl
    | levels count =>
        have levels := affords count limit
        have within : session.openLevels + 1 ≤ count := by omega
        exact decide_eq_true within
  rw [enter]
  exact if_pos allowed

theorem settled_deeper {rule : Rule α} {fault : Fault}
    (failed : (rule session.cursor.pending).result = .error fault) :
    session.deeper.settled (rule session.cursor.pending) =
      session.settled (Rule.deepen rule session.cursor.pending) := by
  unfold Session.settled
  rw [Rule.height_deepen]
  simp only [Session.deeper, Rule.deepen, failed]
  congr 1
  · omega
  · omega

theorem shallower_settled_deeper {rule : Rule α} {value : α}
    (succeeded : (rule session.cursor.pending).result = .ok value)
    (closed : (rule session.cursor.pending).unclosed = 0) :
    (session.deeper.settled (rule session.cursor.pending)).shallower =
      session.settled (Rule.deepen rule session.cursor.pending) := by
  unfold Session.settled
  rw [Rule.height_deepen]
  simp only [Session.shallower, Session.deeper, Rule.deepen, succeeded, closed]
  congr 1
  omega

theorem follows_deepen {walk : Walk α} {rule : Rule α}
    (isWalk : Follows allowance walk rule) :
    Follows (allowance + 1) (deepen walk) (Rule.deepen rule) where
  suffix := isWalk.suffix
  closed := by
    intro tokens value succeeded
    have succeeded : (rule tokens).result = .ok value := succeeded
    simp only [Rule.deepen, succeeded, isWalk.closed tokens value succeeded]
  settles := by
    intro session live affords
    have within := isWalk.settles _ (live_deeper live) (affords_deeper affords)
    have pending : session.deeper.cursor.pending = session.cursor.pending := rfl
    rw [Session.settle, pending] at within
    rw [deepen, bind_of_ok _ (enter_of_affords affords)]
    cases outcome : (rule session.cursor.pending).result with
    | error fault =>
        rw [outcome] at within
        rw [bind_of_error _ within]
        simp only [settled_deeper outcome, Session.settle, Rule.deepen, outcome]
    | ok value =>
        have closed := isWalk.closed _ value outcome
        rw [outcome] at within
        rw [bind_of_ok _ within]
        change (Except.ok value, (Session.settled _ _).shallower) = _
        rw [shallower_settled_deeper outcome closed]
        simp only [Session.settle, Rule.deepen, outcome]

/-- Where no level is left, both find the input too deep. -/
theorem follows_tooDeep :
    Follows 0 (deepen (refuse .tooDeep) : Walk α) Rule.tooDeep where
  suffix _ := List.suffix_rfl
  closed _ _ succeeded := by cases succeeded
  settles := by
    intro session live affords
    have failed : (Rule.fail .tooDeep session.cursor.pending : Run α).result =
        .error .tooDeep := rfl
    have deeper := settled_deeper failed
    have stay : session.deeper.settled
        (Rule.fail .tooDeep session.cursor.pending : Run α) = session.deeper :=
      Session.settled_stay (live_deeper live) _
    rw [stay] at deeper
    rw [Session.settle, Rule.tooDeep, ← deeper]
    by_cases allowed : session.limit.allows session.deeper.openLevels
    · have entered : enter session = (.ok (), session.deeper) := by
        rw [enter]
        exact if_pos allowed
      rw [deepen, bind_of_ok _ entered]
      rfl
    · have entered : enter session =
          (.error (session.deeper.diagnose .tooDeep), session.deeper) := by
        rw [enter]
        exact if_neg allowed
      rw [deepen, bind_of_error _ entered]
      rfl

end Deepen

end Walk

end Criteria
