import Criteria.Parse

/-!
# Events of a parse

A call that parses an input reports three events: that it started, that the
input was cut into tokens, and how it ended.  Lengths of inputs are given in
bytes of their UTF-8 encoding, offsets in characters.
-/

namespace Criteria

/-- How important an event is. -/
inductive Level where
  | trace
  | debug
  deriving DecidableEq, Repr, Inhabited

/-- A value that an event reports. -/
inductive Detail where
  | number (value : Nat)
  | text (value : String)
  deriving DecidableEq, Repr, Inhabited

/-- What happens during a parse. -/
inductive Event where
  | started (byteCount limit : Nat)
  | scanned (byteCount tokenCount : Nat)
  | parsed (byteCount tokenCount deepest : Nat)
  | rejected (offset : Nat) (message : String)
  deriving DecidableEq, Repr, Inhabited

namespace Event

/-- Only the end of a parse is more than a trace. -/
def level : Event → Level
  | started .. | scanned .. => .trace
  | parsed .. | rejected .. => .debug

/-- What the event reports, by name and in order. -/
def details : Event → List (String × Detail)
  | started byteCount limit =>
      [("message", .text "parse"), ("expression_len", .number byteCount),
        ("max_depth", .number limit)]
  | scanned byteCount tokenCount =>
      [("message", .text "tokenized filter expression"),
        ("input_len", .number byteCount), ("token_count", .number tokenCount)]
  | parsed byteCount tokenCount deepest =>
      [("message", .text "filter expression parsed"),
        ("expression_len", .number byteCount),
        ("token_count", .number tokenCount), ("max_depth", .number deepest)]
  | rejected offset message =>
      [("message", .text "filter expression rejected"),
        ("offset", .number offset), ("message", .text message)]

end Event

/-- The event that reports how the reading of a session ended. -/
def Session.finalEvent (session : Session) : Event :=
  match session.parse with
  | (.ok _, after) =>
      .parsed session.expression.utf8ByteSize session.cursor.tokens.size
        after.deepest
  | (.error diagnostic, _) => .rejected diagnostic.offset diagnostic.message

/-- The events of reading a condition within a limit, in order. -/
def parseEvents (limit : Limit) (expression : String) : List Event :=
  let session := Session.ofText expression limit
  let byteCount := expression.utf8ByteSize
  [.started byteCount limit.toNat,
    .scanned byteCount session.cursor.tokens.size,
    session.finalEvent]

end Criteria
