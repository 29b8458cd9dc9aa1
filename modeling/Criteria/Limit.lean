import Criteria.Json.Basic

/-!
# The nesting limit

How deeply a condition may nest.  The condition as a whole is one level, and
every group and every negation is one more.  Without a limit any depth is
allowed; where a number must be shown for it, that is the largest number of 64
bits, which no input reaches.
-/

namespace Criteria

/-- The greatest number of levels, if there is one. -/
inductive Limit where
  | levels (count : Nat)
  | unbounded
  deriving DecidableEq, Repr

namespace Limit

/-- The largest number that a limit can be set to. -/
def maximum : Nat := 0xFFFFFFFFFFFFFFFF

/-- The limit that holds unless another is set. -/
def standard : Limit := levels 128

instance : Inhabited Limit := ⟨standard⟩

/-- The limit as a number. -/
def toNat : Limit → Nat
  | levels count => count
  | unbounded => maximum

/-- Whether so many levels are within the limit. -/
def allows (limit : Limit) (levelCount : Nat) : Bool :=
  match limit with
  | levels count => levelCount ≤ count
  | unbounded => true

/-- How many levels an input of the given number of tokens may open.  A level
after the first takes a token, so that without a limit one level more than
there are tokens is never used up. -/
def allowance (limit : Limit) (tokenCount : Nat) : Nat :=
  match limit with
  | levels count => count
  | unbounded => tokenCount + 1

/-- The name under which a limit is set in a configuration. -/
def settingName : String := "max_depth"

/-- The limit given by a number. -/
def ofNumber? (json : Json) : Option Limit :=
  match json.natural? with
  | some count => if count ≤ maximum then some (levels count) else none
  | none => none

/-- The limit set in a configuration: a record that may set it by name and may
hold other settings, or a list that may hold it alone.  A configuration that
does not set it has the standard limit. -/
def ofJson? : Json → Option Limit
  | .record members =>
      match (Json.record members).member? settingName with
      | none => some standard
      | some value => ofNumber? value
  | .list [] => some standard
  | .list [value] => ofNumber? value
  | _ => none

end Limit

end Criteria
