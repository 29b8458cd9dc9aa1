import Criteria.Expr.Traverse
import Criteria.Token.Kind

/-!
# Subjects

How the fields of an expression may be named.  As a rule a name is no keyword.
A predicate with a keyword of its own may have a spelling of it as its subject,
and directly below a negation the word `NOT` may be a subject.
-/

namespace Criteria

/-- The name is no keyword. -/
def Field.IsUnreserved (field : Field) : Prop :=
  Kind.ofWord field.name = .identifier

namespace Expr

/-- The keyword of a predicate that begins its tail with one. -/
def keyword? : Expr → Option Kind
  | between .. => some .betweenWord
  | like .. => some .likeWord
  | member .. => some .inWord
  | _ => none

/-- Whether the predicate has the word `NOT` in it. -/
def isNegated : Expr → Bool
  | between _ negated .. | like _ negated _ | member _ negated _
  | isNull _ negated => negated
  | _ => false

/-- The subject is spelled like the keyword of the predicate itself. -/
def EchoesKeyword (predicate : Expr) (subject : Field) : Prop :=
  predicate.keyword? = some (.ofWord subject.name)

/-- The subject is the word `NOT`, in a predicate that begins its tail with a
keyword and stands directly below a negation. -/
def EchoesNegation (parent predicate : Expr) (subject : Field) : Prop :=
  parent = .negation predicate ∧ predicate.keyword?.isSome ∧
    predicate.isNegated = false ∧ Kind.ofWord subject.name = .notWord

/-- A subject that a part may have directly below another part. -/
def AllowsSubject (parent part : Expr) (subject : Field) : Prop :=
  subject.IsUnreserved ∨ part.EchoesKeyword subject ∨
    parent.EchoesNegation part subject

/-- Every part below another one has subjects that it may have there. -/
def SubjectsAllowed (expression : Expr) : Prop :=
  ∀ parent ∈ expression.walk, ∀ part ∈ parent.children,
    ∀ subject ∈ part.ownFields, parent.AllowsSubject part subject

/-- A field that occurs is named by the outermost construct or by a part that
stands directly below another one. -/
theorem exists_parent_of_mem_fields {expression : Expr} {subject : Field}
    (occurs : subject ∈ expression.fields) :
    subject ∈ expression.ownFields ∨
      ∃ parent ∈ expression.walk, ∃ part ∈ parent.children,
        subject ∈ part.ownFields := by
  obtain ⟨part, inside, own⟩ := List.mem_flatMap.mp occurs
  rcases eq_or_mem_children_of_mem_walk inside with rfl | ⟨parent, inWalk, below⟩
  · exact .inl own
  · exact .inr ⟨parent, inWalk, part, below, own⟩

theorem subjectsAllowed_iff {expression : Expr} :
    expression.SubjectsAllowed ↔
      (∀ part ∈ expression.children, ∀ subject ∈ part.ownFields,
        expression.AllowsSubject part subject) ∧
      ∀ part ∈ expression.children, part.SubjectsAllowed := by
  unfold SubjectsAllowed
  rw [walk_eq_cons, List.forall_mem_cons]
  apply and_congr_right
  intro _
  constructor
  · intro below part isPart parent inWalk
    exact below parent (List.mem_flatMap.mpr ⟨part, isPart, inWalk⟩)
  · intro below parent inWalk
    obtain ⟨part, isPart, inPart⟩ := List.mem_flatMap.mp inWalk
    exact below part isPart parent inPart

end Expr

end Criteria
