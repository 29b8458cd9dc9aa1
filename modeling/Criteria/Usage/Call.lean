import Criteria.Usage

/-!
# Calls that are counted

The metered operations as data, without their results.  What a call scans and
what it reads can be told from the call alone; the counters sum that up over
the calls since the last reset.  A session may be read by several calls, each
time as the calls before have left it.
-/

namespace Criteria

/-- Whether reading what a session has not loaded ends with a diagnostic. -/
def Session.isRefused (session : Session) : Bool :=
  match session.parse.1 with
  | .ok _ => false
  | .error _ => true

/-- A call of a metered operation. -/
inductive Call where
  | tokenize (input : String)
  | openCursor (input : String)
  | openSession (input : String) (limit : Limit)
  | runSession (session : Session)
  | parseWithin (limit : Limit) (input : String)
  | parse (input : String)
  | normalize (input : String)
  | resetScans
  | resetParses

namespace Call

/-- Carry out a call and discard its result. -/
def run : Call → Metered Unit
  | tokenize input => discard (Metered.tokenize input)
  | openCursor input => discard (Metered.openCursor input)
  | openSession input limit => discard (Metered.openSession input limit)
  | runSession session => discard (Metered.runSession session)
  | parseWithin limit input => discard (Metered.parseWithin limit input)
  | parse input => discard (Metered.parse input)
  | normalize input => discard (Metered.normalize input)
  | resetScans => Metered.resetScans
  | resetParses => Metered.resetParses

/-- Carry out calls one after the other. -/
def runAll : List Call → Metered Unit
  | [] => return ()
  | first :: others => do
      first.run
      runAll others

/-- The input that a call cuts into tokens, if any. -/
def scanned? : Call → Option String
  | tokenize input | openCursor input | openSession input _
  | parseWithin _ input | parse input | normalize input => some input
  | runSession _ | resetScans | resetParses => none

/-- The session that a call reads, if any. -/
def read? : Call → Option Session
  | runSession session => some session
  | parseWithin limit input => some (.ofText input limit)
  | parse input | normalize input => some (.ofText input .standard)
  | tokenize _ | openCursor _ | openSession .. | resetScans | resetParses => none

/-- Whether a call sets the counters of scans to zero. -/
def isResetScans : Call → Bool
  | resetScans => true
  | _ => false

/-- Whether a call sets the counters of parses to zero. -/
def isResetParses : Call → Bool
  | resetParses => true
  | _ => false

/-- The calls behind the last reset among them, or all of them. -/
def since (isReset : Call → Bool) (calls : List Call) : List Call :=
  (calls.reverse.takeWhile fun call => !isReset call).reverse

/-- The inputs that were cut into tokens since the last reset. -/
def scannedSince (calls : List Call) : List String :=
  (since isResetScans calls).filterMap scanned?

/-- The sessions that were read since the last reset, as they were before. -/
def readSince (calls : List Call) : List Session :=
  (since isResetParses calls).filterMap read?

/-- The usage after calls, one after the other. -/
def usageAfter (calls : List Call) (usage : Usage) : Usage :=
  ((runAll calls).run usage).2

end Call

end Criteria
