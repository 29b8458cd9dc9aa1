/-!
# Diagnostics

A diagnostic says what is wrong with an input and where.  Its cause decides
both its category and its message.  Diagnostics about the form of the input
come from reading it; those about its meaning are raised by consumers of the
expression, and they show an excerpt of the input.
-/

namespace Criteria

/-- What a diagnostic is about. -/
inductive Category where
  /-- The input has not the form of a condition. -/
  | form
  /-- The condition makes no sense to its consumer. -/
  | meaning
  deriving DecidableEq, Repr, Inhabited

/-- Why an input was refused. -/
inductive Cause where
  /-- Something else was found than was wanted; nothing is found at the end of
  the input. -/
  | mismatch (wanted : String) (found : Option String)
  /-- The condition nests more deeply than the limit allows. -/
  | tooDeep (limit : Nat)
  /-- Any other remark on the form of the input. -/
  | malformed (message : String)
  /-- A remark on the meaning of the condition. -/
  | meaningless (message : String)
  deriving DecidableEq, Repr, Inhabited

namespace Cause

/-- Only remarks on the meaning concern the meaning. -/
def category : Cause → Category
  | mismatch .. | tooDeep _ | malformed _ => .form
  | meaningless _ => .meaning

/-- The first words of a mismatch: what was wanted, if that can be said. -/
def wantedPart (wanted : String) : String :=
  if wanted = "" then "Unexpected " else "Expected " ++ wanted ++ ", got "

/-- The last words of a mismatch: what was found. -/
def foundPart : Option String → String
  | some text => "'" ++ text ++ "'"
  | none => "end of string."

/-- The message without category and position. -/
def message : Cause → String
  | mismatch wanted found => wantedPart wanted ++ foundPart found
  | tooDeep limit => "maximum nesting depth " ++ toString limit ++ " exceeded"
  | malformed message => message
  | meaningless message => message

end Cause

/-- A finding about an input. -/
structure Diagnostic where
  cause : Cause
  /-- How many characters of the input come before the place in question. -/
  offset : Nat
  /-- The complete input. -/
  expression : String
  deriving DecidableEq, Repr, Inhabited

/-- How many characters an excerpt shows before it may end at a space. -/
def excerptLength : Nat := 12

/-- The part of a text shown from an offset on: twelve characters, and from
there to the next space.  Without such a space it ends after the twelve. -/
def excerpt (text : String) (offset : Nat) : String :=
  let shown := text.toList.drop offset
  let further := shown.drop excerptLength
  let tail :=
    if further.contains ' ' then further.takeWhile (· ≠ ' ') else []
  String.ofList (shown.take excerptLength ++ tail)

namespace Diagnostic

/-- What the cause is about. -/
def category (diagnostic : Diagnostic) : Category :=
  diagnostic.cause.category

/-- The message of the cause, without category and position. -/
def message (diagnostic : Diagnostic) : String :=
  diagnostic.cause.message

/-- The complete line shown to a user. -/
def render (diagnostic : Diagnostic) : String :=
  match diagnostic.category with
  | .form =>
      "[Syntax Error] col " ++ toString diagnostic.offset ++ ": Error: " ++
        diagnostic.message
  | .meaning =>
      "[Semantical Error] col " ++ toString diagnostic.offset ++ " near '" ++
        excerpt diagnostic.expression diagnostic.offset ++ "': Error: " ++
        diagnostic.message

instance : ToString Diagnostic := ⟨render⟩

end Diagnostic

end Criteria
