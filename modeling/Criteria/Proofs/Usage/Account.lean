import Criteria.Usage.Call
import Mathlib.Data.List.Induction

/-!
# The counters account for every call

Whatever was called and in which order, the counters of scans sum up the inputs
that were cut into tokens since they were last reset, and the counters of parses
the sessions that were read since they were last reset.  A single call keeps the
account, and therefore any number of calls does.
-/

namespace Criteria

/-- The counter has counted so many, and has wrapped around behind 64 bits. -/
def HasCounted (counter : UInt64) (number : Nat) : Prop :=
  counter.toNat = number % UInt64.size

namespace HasCounted

variable {counter : UInt64} {number : Nat}

theorem zero : HasCounted 0 0 :=
  rfl

theorem add (counted : HasCounted counter number) (further : Nat) :
    HasCounted (counter + further.toUInt64) (number + further) := by
  unfold HasCounted at counted ⊢
  rw [UInt64.toNat_add, counted, Nat.toUInt64, UInt64.toNat_ofNat']
  exact (Nat.add_mod number further UInt64.size).symm

theorem succ (counted : HasCounted counter number) :
    HasCounted (counter + 1) (number + 1) :=
  counted.add 1

/-- A counter that has not wrapped around shows the number. -/
theorem toNat_eq (counted : HasCounted counter number)
    (small : number < UInt64.size) : counter.toNat = number := by
  rw [counted, Nat.mod_eq_of_lt small]

end HasCounted

/-- Whatever its length, a duration goes into one counter. -/
theorem Durations.count_record (durations : Durations) (elapsed : Nat) :
    (durations.record elapsed).count = durations.count + 1 := by
  unfold record
  generalize min elapsed 0xFFFFFFFFFFFFFFFF = micros
  by_cases upTo10 : micros ≤ 10
  · simp only [upTo10, if_true, count]
    ac_rfl
  by_cases upTo100 : micros ≤ 100
  · simp only [upTo10, upTo100, if_true, if_false, count]
    ac_rfl
  by_cases upTo1000 : micros ≤ 1000
  · simp only [upTo10, upTo100, upTo1000, if_true, if_false, count]
    ac_rfl
  by_cases upTo10000 : micros ≤ 10000
  · simp only [upTo10, upTo100, upTo1000, upTo10000, if_true, if_false, count]
    ac_rfl
  · simp only [upTo10, upTo100, upTo1000, upTo10000, if_false, count]
    ac_rfl

/-- The counters of scans sum up the scans of these inputs. -/
structure ScanUsage.Accounts (usage : ScanUsage) (inputs : List String) :
    Prop where
  calls : HasCounted usage.calls inputs.length
  timed : HasCounted usage.durations.count inputs.length
  tokens : HasCounted usage.tokens (inputs.flatMap tokenize).length
  unmatched : HasCounted usage.unmatched
    ((inputs.flatMap tokenize).countP Token.isUnclassified)

/-- The counters of parses sum up the readings of these sessions. -/
structure ParseUsage.Accounts (usage : ParseUsage) (sessions : List Session) :
    Prop where
  runs : HasCounted usage.runs sessions.length
  errors : HasCounted usage.errors (sessions.countP Session.isRefused)
  deepest : usage.deepest =
    (sessions.map fun session => session.parse.2.deepest).foldr max 0

namespace ScanUsage

theorem accounts_zero : zero.Accounts [] :=
  ⟨.zero, .zero, .zero, .zero⟩

variable {usage : ScanUsage} {inputs : List String}

theorem Accounts.record (accounts : usage.Accounts inputs) (input : String)
    (elapsed : Nat) :
    (usage.record (tokenize input) elapsed).Accounts (inputs ++ [input]) where
  calls := by
    rw [List.length_append]
    exact accounts.calls.succ
  timed := by
    rw [List.length_append]
    change HasCounted (usage.durations.record elapsed).count _
    rw [Durations.count_record]
    exact accounts.timed.succ
  tokens := by
    rw [List.flatMap_append, List.flatMap_singleton, List.length_append]
    exact accounts.tokens.add _
  unmatched := by
    rw [List.flatMap_append, List.flatMap_singleton, List.countP_append]
    exact accounts.unmatched.add _

/-- As long as the tokens have not wrapped around, those without a category are
no more than all. -/
theorem Accounts.unmatched_le (accounts : usage.Accounts inputs)
    (small : (inputs.flatMap tokenize).length < UInt64.size) :
    usage.unmatched ≤ usage.tokens := by
  have fewer := List.countP_le_length (p := Token.isUnclassified)
    (l := inputs.flatMap tokenize)
  rw [UInt64.le_iff_toNat_le, accounts.tokens.toNat_eq small,
    accounts.unmatched.toNat_eq (Nat.lt_of_le_of_lt fewer small)]
  exact fewer

end ScanUsage

namespace ParseUsage

theorem accounts_zero : zero.Accounts [] :=
  ⟨.zero, .zero, rfl⟩

theorem foldr_max_append (depths : List Nat) (last : Nat) :
    (depths ++ [last]).foldr max 0 = max (depths.foldr max 0) last := by
  induction depths with
  | nil => simp
  | cons first others ih =>
      rw [List.cons_append, List.foldr_cons, List.foldr_cons, ih, Nat.max_assoc]

variable {usage : ParseUsage} {sessions : List Session}

theorem Accounts.record (accounts : usage.Accounts sessions) (session : Session) :
    (usage.record session.isRefused session.parse.2.deepest).Accounts
      (sessions ++ [session]) where
  runs := by
    rw [List.length_append]
    exact accounts.runs.succ
  errors := by
    rw [List.countP_append, List.countP_singleton]
    unfold ParseUsage.record
    cases session.isRefused with
    | true => exact accounts.errors.succ
    | false => exact accounts.errors
  deepest := by
    rw [List.map_append, List.map_singleton, foldr_max_append, ← accounts.deepest]
    rfl

/-- As long as the runs have not wrapped around, those with a diagnostic are no
more than all. -/
theorem Accounts.errors_le (accounts : usage.Accounts sessions)
    (small : sessions.length < UInt64.size) : usage.errors ≤ usage.runs := by
  have fewer := List.countP_le_length (p := Session.isRefused) (l := sessions)
  rw [UInt64.le_iff_toNat_le, accounts.runs.toNat_eq small,
    accounts.errors.toNat_eq (Nat.lt_of_le_of_lt fewer small)]
  exact fewer

end ParseUsage

namespace Call

/-- What a call does to the counters of scans: it resets them, or it counts the
input that it cuts into tokens. -/
theorem scans_run (call : Call) (usage : Usage) :
    (call.run.run usage).2.scans =
      if call.isResetScans then .zero
      else match call.scanned? with
        | some input =>
            usage.scans.record (Criteria.tokenize input) (usage.stopwatch.headD 0)
        | none => usage.scans := by
  cases call <;> rfl

/-- What a call does to the counters of parses: it resets them, or it counts the
session that it reads. -/
theorem parses_run (call : Call) (usage : Usage) :
    (call.run.run usage).2.parses =
      if call.isResetParses then .zero
      else match call.read? with
        | some session =>
            usage.parses.record session.isRefused session.parse.2.deepest
        | none => usage.parses := by
  cases call <;> rfl

theorem usageAfter_append (calls : List Call) (last : Call) (usage : Usage) :
    usageAfter (calls ++ [last]) usage =
      (last.run.run (usageAfter calls usage)).2 := by
  induction calls generalizing usage with
  | nil => rfl
  | cons first others ih => exact ih (first.run.run usage).2

/-- One more call adds what it tells, or it is a reset and nothing is left. -/
theorem filterMap_since_append {α : Type} (isReset : Call → Bool)
    (tell : Call → Option α) (calls : List Call) (last : Call) :
    (since isReset (calls ++ [last])).filterMap tell =
      if isReset last then []
      else (since isReset calls).filterMap tell ++ (tell last).toList := by
  unfold since
  rw [List.reverse_append, List.reverse_singleton, List.singleton_append,
    List.takeWhile_cons]
  cases isReset last with
  | true => rfl
  | false =>
      simp only [Bool.not_false, if_true, Bool.false_eq_true, if_false,
        List.reverse_cons, List.filterMap_append, List.filterMap_cons]
      cases tell last <;> rfl

/-- One more call keeps the account of scans. -/
theorem scansAccount_run {calls : List Call} {usage : Usage}
    (accounts : usage.scans.Accounts (scannedSince calls)) (last : Call) :
    (last.run.run usage).2.scans.Accounts (scannedSince (calls ++ [last])) := by
  rw [scans_run, scannedSince, filterMap_since_append]
  cases last.isResetScans with
  | true => exact ScanUsage.accounts_zero
  | false =>
      cases last.scanned? with
      | none => simpa [scannedSince] using accounts
      | some input => exact accounts.record input _

/-- One more call keeps the account of parses. -/
theorem parsesAccount_run {calls : List Call} {usage : Usage}
    (accounts : usage.parses.Accounts (readSince calls)) (last : Call) :
    (last.run.run usage).2.parses.Accounts (readSince (calls ++ [last])) := by
  rw [parses_run, readSince, filterMap_since_append]
  cases last.isResetParses with
  | true => exact ParseUsage.accounts_zero
  | false =>
      cases last.read? with
      | none => simpa [readSince] using accounts
      | some session => exact accounts.record session

theorem accounts_usageAfter (calls : List Call) (stopwatch : List Nat) :
    (usageAfter calls (.fresh stopwatch)).scans.Accounts (scannedSince calls) ∧
      (usageAfter calls (.fresh stopwatch)).parses.Accounts (readSince calls) := by
  induction calls using List.reverseRecOn with
  | nil => exact ⟨ScanUsage.accounts_zero, ParseUsage.accounts_zero⟩
  | append_singleton others last ih =>
      rw [usageAfter_append]
      exact ⟨scansAccount_run ih.1 last, parsesAccount_run ih.2 last⟩

/-- The counters account for all calls, however long the scans take.  Each set
sums up the calls since its own last reset, and a reset of one leaves the other
as it was.  As long as nothing has wrapped around, no more tokens have no
category than there are, and no more parses fail than are run. -/
theorem usage_accounts_for_calls (calls : List Call) (stopwatch : List Nat) :
    let usage := usageAfter calls (.fresh stopwatch)
    let scansReset := usageAfter (calls ++ [.resetScans]) (.fresh stopwatch)
    let parsesReset := usageAfter (calls ++ [.resetParses]) (.fresh stopwatch)
    usage.scans.Accounts (scannedSince calls) ∧
      usage.parses.Accounts (readSince calls) ∧
      (scansReset.scans = .zero ∧ scansReset.parses = usage.parses) ∧
      (parsesReset.parses = .zero ∧ parsesReset.scans = usage.scans) ∧
      (((scannedSince calls).flatMap Criteria.tokenize).length < UInt64.size →
        usage.scans.unmatched ≤ usage.scans.tokens) ∧
      ((readSince calls).length < UInt64.size →
        usage.parses.errors ≤ usage.parses.runs) := by
  intro usage scansReset parsesReset
  obtain ⟨scans, parses⟩ := accounts_usageAfter calls stopwatch
  refine ⟨scans, parses, ?_, ?_, scans.unmatched_le, parses.errors_le⟩
  · simp only [scansReset, usageAfter_append]
    exact ⟨rfl, rfl⟩
  · simp only [parsesReset, usageAfter_append]
    exact ⟨rfl, rfl⟩

theorem usage_accounts_for_calls_of_reset_between :
    let calls := [.parse "a = #", .resetParses, .normalize "NOT (a = 1"]
    let usage := usageAfter calls (.fresh [3, 20000])
    ((scannedSince calls).flatMap Criteria.tokenize).length < UInt64.size ∧
      (readSince calls).length < UInt64.size ∧
      usage.scans.unmatched ≤ usage.scans.tokens ∧
      usage.parses.errors ≤ usage.parses.runs := by
  intro calls usage
  obtain ⟨-, -, -, -, unmatched, errors⟩ :=
    usage_accounts_for_calls calls [3, 20000]
  have fewTokens :
      ((scannedSince calls).flatMap Criteria.tokenize).length < UInt64.size := by
    decide +kernel
  have fewParses : (readSince calls).length < UInt64.size := by decide +kernel
  exact ⟨fewTokens, fewParses, unmatched fewTokens, errors fewParses⟩

end Call

end Criteria
