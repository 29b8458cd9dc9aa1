import Criteria.Walk.Condition

/-!
# Courses

A course says of which single operations a walk is made.  It is a course of one
walk only, namely of the one that its operations make up, so that what it says
of the walk cannot be anything else than what the walk does.
-/

namespace Criteria

namespace Walk

/-- The single operations of a walk, in the order in which they are reached. -/
inductive Course : {α : Type} → Walk α → Type 1 where
  | pure {α : Type} (value : α) : Course (Pure.pure value : Walk α)
  | look {α : Type} (question : Cursor → α) : Course (look question)
  | refuse {α : Type} (fault : Fault) : Course (refuse fault : Walk α)
  | expect (kind : Kind) : Course (expect kind)
  /-- Look behind the parenthesis that matches the lookahead. -/
  | seekGroup : Course (scout Scout.standard.opensGroup)
  /-- Look for the word that decides on the form of a predicate. -/
  | seekForm : Course (scout Scout.standard.form)
  | bind {α β : Type} {first : Walk α} {next : α → Walk β}
      (courseFirst : Course first) (courseNext : ∀ value, Course (next value)) :
      Course (first >>= next)
  /-- A walk one level deeper, whose course is asked for when it is entered. -/
  | deepen {α : Type} {walk : Walk α} (inner : Unit → Course walk) :
      Course (deepen walk)

namespace Course

variable {α β : Type}

/-- The course of a choice. -/
def choice {present absent : Walk α} (coursePresent : Course present)
    (courseAbsent : Course absent) :
    (found : Bool) → Course (if found then present else absent)
  | true => coursePresent
  | false => courseAbsent

def optional (kind : Kind) : Course (optional kind) :=
  .bind (.look _) (choice (.bind (.expect kind) fun _ => .pure true) (.pure false))

def sepByUpTo (separator : Kind) {item : Walk α} (courseItem : Course item) :
    (bound : Nat) → Course (sepByUpTo separator item bound)
  | 0 => .bind courseItem fun _ => .pure _
  | bound + 1 =>
      .bind courseItem fun _ => .bind (optional separator)
        (choice
          (.bind (sepByUpTo separator courseItem bound) fun _ => .pure _)
          (.pure _))

def sepBy (separator : Kind) {item : Walk α} (courseItem : Course item) :
    Course (sepBy separator item) :=
  .bind (.look fun cursor => cursor.pending.length)
    (sepByUpTo separator courseItem)

def finish : Course finish :=
  .bind (.look _) fun token => choice (.refuse _) (.pure ()) token.isSome

def field : Course field :=
  .bind (.expect _) fun _ => .bind (.look _) fun _ => .pure _

def literal : Course literal :=
  .bind (.look _) fun found =>
    match found.literalKind? with
    | some _ => .bind (.expect found) fun _ => .bind (.look _) fun _ => .pure _
    | none => .refuse _

def operand : Course operand :=
  .bind (.look _) (choice (.bind field fun _ => .pure _)
    (.bind literal fun _ => .pure _))

def pattern : Course pattern :=
  .bind (.look _) fun found => by
    -- With a variable for the other kinds, `pattern` would not unfold there.
    cases found with
    | identifier => exact .bind field fun _ => .pure _
    | string =>
        exact .bind (.expect _) fun _ => .bind (.look _) fun _ => .pure _
    | _ => exact .refuse _

def relOp : Course relOp :=
  .bind (.look _) fun found => by
    cases found with
    | equals => exact .bind (.expect _) fun _ => .pure _
    | lowerThan =>
        exact .bind (.expect _) fun _ => .bind (optional _) (choice (.pure _)
          (.bind (optional _) (choice (.pure _) (.pure _))))
    | greaterThan =>
        exact .bind (.expect _) fun _ => .bind (optional _)
          (choice (.pure _) (.pure _))
    | negate =>
        exact .bind (.expect _) fun _ => .bind (.expect _) fun _ => .pure _
    | _ => exact .refuse _

def comparison : Course comparison :=
  .bind operand fun _ => .bind relOp fun _ => .bind operand fun _ => .pure _

def between : Course between :=
  .bind field fun _ => .bind (optional _) fun _ => .bind (.expect _) fun _ =>
    .bind operand fun _ => .bind (.expect _) fun _ => .bind operand fun _ =>
      .pure _

def like : Course like :=
  .bind field fun _ => .bind (optional _) fun _ => .bind (.expect _) fun _ =>
    .bind pattern fun _ => .pure _

def member : Course member :=
  .bind field fun _ => .bind (optional _) fun _ => .bind (.expect _) fun _ =>
    .bind (.expect _) fun _ => .bind (sepBy _ literal) fun _ =>
      .bind (.expect _) fun _ => .pure _

def isNull : Course isNull :=
  .bind field fun _ => .bind (.expect _) fun _ => .bind (optional _) fun _ =>
    .bind (.expect _) fun _ => .pure _

def predicate : Course (predicate .standard) :=
  .bind .seekForm fun form =>
    match form with
    | .between => between
    | .like => like
    | .member => member
    | .isNull => isNull
    | .comparison => comparison

section Conditions

variable {inner negated plain item : Walk Expr}

def primary (courseInner : Course inner) : Course (primary .standard inner) :=
  .bind (.look _) (choice
    (.bind .seekGroup (choice
      (.bind (.expect _) fun _ => .bind courseInner fun _ =>
        .bind (.expect _) fun _ => .pure _)
      predicate))
    predicate)

def factor (courseNegated : Course negated) (coursePlain : Course plain) :
    Course (factor negated plain) :=
  .bind (optional _) (choice courseNegated coursePlain)

def conjunction (courseItem : Course item) : Course (conjunction item) :=
  .bind (sepBy _ courseItem) fun _ => .pure _

def disjunction (courseItem : Course item) : Course (disjunction item) :=
  .bind (sepBy _ courseItem) fun _ => .pure _

end Conditions

mutual

def expression : (levels : Nat) → Course (expression .standard levels)
  | 0 => .deepen fun _ => .refuse .tooDeep
  | levels + 1 =>
      .deepen fun _ => disjunction (conjunction
        (factor (negation levels) (primary (expression levels))))

def negation : (levels : Nat) → Course (negation .standard levels)
  | 0 => .deepen fun _ => .refuse .tooDeep
  | levels + 1 =>
      .deepen fun _ => .bind (primary (expression levels)) fun _ => .pure _

end

def filter (levels : Nat) : Course (filter .standard levels) :=
  .bind (expression levels) fun _ => .bind finish fun _ => .pure _

end Course

end Walk

end Criteria
