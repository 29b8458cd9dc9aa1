import Criteria.Parse

/-!
# Usage

Counters of what was scanned and parsed since they were last reset.  There are
two sets, one for scanning and one for parsing, which are reset apart.  The
counters have 64 bits and wrap around; the deepest level is a maximum.  How long
a scan takes is up to the clock, so that the durations are given beforehand.
`Metered` runs the operations of the library and keeps the counters up to date:
whatever scans an input counts as one scan, and each reading of a session as
one parse.
-/

namespace Criteria

/-- How many scans took how long, up to bounds in microseconds, and how long
they took together. -/
structure Durations where
  upTo10 : UInt64
  upTo100 : UInt64
  upTo1000 : UInt64
  upTo10000 : UInt64
  longer : UInt64
  total : UInt64
  deriving DecidableEq, Repr

namespace Durations

/-- No duration was taken. -/
def zero : Durations := ⟨0, 0, 0, 0, 0, 0⟩

/-- How many durations were taken. -/
def count (durations : Durations) : UInt64 :=
  durations.upTo10 + durations.upTo100 + durations.upTo1000 +
    durations.upTo10000 + durations.longer

/-- Count a duration of so many microseconds.  One that needs more than 64 bits
is taken for the longest that does not. -/
def record (durations : Durations) (elapsed : Nat) : Durations :=
  let micros := min elapsed 0xFFFFFFFFFFFFFFFF
  let summed := { durations with total := durations.total + micros.toUInt64 }
  if micros ≤ 10 then { summed with upTo10 := durations.upTo10 + 1 }
  else if micros ≤ 100 then { summed with upTo100 := durations.upTo100 + 1 }
  else if micros ≤ 1000 then { summed with upTo1000 := durations.upTo1000 + 1 }
  else if micros ≤ 10000 then
    { summed with upTo10000 := durations.upTo10000 + 1 }
  else { summed with longer := durations.longer + 1 }

end Durations

/-- Counters of scans. -/
structure ScanUsage where
  calls : UInt64
  tokens : UInt64
  /-- Tokens that belong to no category. -/
  unmatched : UInt64
  durations : Durations
  deriving DecidableEq, Repr

/-- Counters of parses. -/
structure ParseUsage where
  runs : UInt64
  errors : UInt64
  /-- The deepest level that any parse opened. -/
  deepest : Nat
  deriving DecidableEq, Repr

/-- Both sets of counters, and the clock. -/
structure Usage where
  scans : ScanUsage
  parses : ParseUsage
  /-- How many microseconds the coming scans will take, one after the other.
  Behind the last of them scans take no time. -/
  stopwatch : List Nat
  deriving DecidableEq, Repr

/-- Nothing has been scanned. -/
def ScanUsage.zero : ScanUsage := ⟨0, 0, 0, .zero⟩

/-- Nothing has been parsed. -/
def ParseUsage.zero : ParseUsage := ⟨0, 0, 0⟩

/-- How many scans had their duration taken. -/
def ScanUsage.timed (usage : ScanUsage) : UInt64 :=
  usage.durations.count

/-- Whether a token belongs to no category. -/
def Token.isUnclassified (token : Token) : Bool :=
  token.kind = .unclassified

/-- Count one scan that gave these tokens after so many microseconds. -/
def ScanUsage.record (usage : ScanUsage) (tokens : List Token) (elapsed : Nat) :
    ScanUsage where
  calls := usage.calls + 1
  tokens := usage.tokens + tokens.length.toUInt64
  unmatched := usage.unmatched + (tokens.countP Token.isUnclassified).toUInt64
  durations := usage.durations.record elapsed

/-- Count one parse, which failed or not and opened so many levels. -/
def ParseUsage.record (usage : ParseUsage) (failed : Bool) (height : Nat) :
    ParseUsage where
  runs := usage.runs + 1
  errors := if failed then usage.errors + 1 else usage.errors
  deepest := max usage.deepest height

namespace Usage

/-- Nothing has been done, and the coming scans will take this long. -/
def fresh (stopwatch : List Nat) : Usage := ⟨.zero, .zero, stopwatch⟩

/-- Nothing has been done, and nothing will take time. -/
def zero : Usage := fresh []

/-- Count one scan, with the duration that the clock gives for it. -/
def recordScan (usage : Usage) (tokens : List Token) : Usage :=
  { usage with
    scans := usage.scans.record tokens (usage.stopwatch.headD 0)
    stopwatch := usage.stopwatch.tail }

/-- Count one parse. -/
def recordParse (usage : Usage) (failed : Bool) (height : Nat) : Usage :=
  { usage with parses := usage.parses.record failed height }

end Usage

/-- Work during which usage is counted. -/
abbrev Metered (α : Type) : Type :=
  StateM Usage α

namespace Metered

/-- Cut an input into tokens. -/
def tokenize (input : String) : Metered (List Token) := do
  let tokens := Criteria.tokenize input
  modify fun usage => usage.recordScan tokens
  return tokens

/-- Start a walk over the tokens of an input. -/
def openCursor (text : String) : Metered Cursor := do
  let cursor := Cursor.ofText text
  modify fun usage => usage.recordScan cursor.tokens.toList
  return cursor

/-- Start a session on an input. -/
def openSession (expression : String) (limit : Limit) : Metered Session := do
  let session := Session.ofText expression limit
  modify fun usage => usage.recordScan session.cursor.tokens.toList
  return session

/-- Read what a session has not loaded.  Nothing is scanned again. -/
def runSession (session : Session) :
    Metered (Except Diagnostic Expr × Session) := do
  let (outcome, after) := session.parse
  let failed := match outcome with
    | .ok _ => false
    | .error _ => true
  modify fun usage => usage.recordParse failed after.deepest
  return (outcome, after)

/-- Read a condition that nests within the limit. -/
def parseWithin (limit : Limit) (expression : String) :
    Metered (Except Diagnostic Expr) := do
  let session ← openSession expression limit
  let (outcome, _) ← runSession session
  return outcome

/-- Read a condition that nests within the standard limit. -/
def parse (expression : String) : Metered (Except Diagnostic Expr) :=
  parseWithin .standard expression

/-- The canonical text of a condition. -/
def normalize (expression : String) : Metered (Except Diagnostic String) := do
  let outcome ← parse expression
  return outcome.map Expr.render

/-- Set the counters of scans to zero. -/
def resetScans : Metered Unit :=
  modify fun usage => { usage with scans := .zero }

/-- Set the counters of parses to zero. -/
def resetParses : Metered Unit :=
  modify fun usage => { usage with parses := .zero }

end Metered

end Criteria
