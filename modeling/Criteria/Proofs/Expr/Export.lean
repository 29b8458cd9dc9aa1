import Criteria.Expr.Import
import Criteria.Proofs.Json.Read

/-!
# The export is faithful

The import takes every expression back from its JSON form, also one that no
condition denotes, and the JSON form back from the exported text.  Two
expressions with the same exported text are therefore equal.
-/

namespace Criteria

@[simp] theorem RelOp.ofSymbol?_symbol (op : RelOp) :
    ofSymbol? op.symbol = some op := by
  cases op <;> rfl

@[simp] theorem LiteralKind.ofName?_name (kind : LiteralKind) :
    ofName? kind.name = some kind := by
  cases kind <;> rfl

@[simp] theorem Literal.ofJson?_toJson (literal : Literal) :
    ofJson? literal.toJson = some literal := by
  simp [ofJson?, toJson]

@[simp] theorem Field.ofJson?_toJson (field : Field) :
    ofJson? field.toJson = some field := rfl

theorem Literal.mapM_ofJson?_toJson (values : List Literal) :
    (values.map toJson).mapM ofJson? = some values := by
  induction values with
  | nil => rfl
  | cons value values ih => simp [ih]

namespace Expr

mutual

/-- An expression is taken back from its JSON form. -/
theorem ofJson?_toJson : (expression : Expr) →
    ofJson? expression.toJson = some expression
  | filter body => by
      simp only [toJson, tagged, ofJson?, ofJson?_toJson body, Option.map_some]
  | disjunction terms => by
      simp only [toJson, tagged, ofJson?, ofJsonList?_toJsonList terms,
        Option.map_some]
  | conjunction factors => by
      simp only [toJson, tagged, ofJson?, ofJsonList?_toJsonList factors,
        Option.map_some]
  | negation inner => by
      simp only [toJson, tagged, ofJson?, ofJson?_toJson inner, Option.map_some]
  | group inner => by
      simp only [toJson, tagged, ofJson?, ofJson?_toJson inner, Option.map_some]
  | comparison left op right => by
      simp only [toJson, tagged, ofJson?, ofJson?_toJson left,
        ofJson?_toJson right, RelOp.ofSymbol?_symbol]
  | between subject negated low high => by
      simp only [toJson, tagged, ofJson?, ofJson?_toJson low,
        ofJson?_toJson high, Field.ofJson?_toJson]
  | like subject negated pattern => by
      simp only [toJson, tagged, ofJson?, ofJson?_toJson pattern,
        Field.ofJson?_toJson]
  | member subject negated values => by
      simp only [toJson, tagged, ofJson?, Field.ofJson?_toJson,
        Literal.mapM_ofJson?_toJson]
  | isNull subject negated => by
      simp only [toJson, tagged, ofJson?, Field.ofJson?_toJson, Option.map_some]
  | field subject => by
      simp only [toJson, tagged, ofJson?]
  | literal value => by
      simp only [toJson, tagged, ofJson?, LiteralKind.ofName?_name,
        Option.map_some]

theorem ofJsonList?_toJsonList : (operands : List Expr) →
    ofJsonList? (toJsonList operands) = some operands
  | [] => by simp only [toJsonList, ofJsonList?]
  | operand :: operands => by
      simp only [toJsonList, ofJsonList?, ofJson?_toJson operand,
        ofJsonList?_toJsonList operands]

end

end Expr

theorem Field.wellSpelled_toJson (field : Field) : field.toJson.WellSpelled :=
  ⟨trivial, trivial⟩

theorem Literal.wellSpelled_toJson (literal : Literal) :
    literal.toJson.WellSpelled :=
  ⟨trivial, trivial, trivial⟩

theorem Literal.areWellSpelled_map_toJson (values : List Literal) :
    Json.AreWellSpelled (values.map toJson) := by
  induction values with
  | nil => trivial
  | cons value values ih => exact ⟨value.wellSpelled_toJson, ih⟩

namespace Expr

mutual

/-- The JSON form has no number in it, and so no ill-spelled one. -/
theorem wellSpelled_toJson : (expression : Expr) → expression.toJson.WellSpelled
  | filter body => ⟨trivial, wellSpelled_toJson body, trivial⟩
  | disjunction terms => ⟨trivial, areWellSpelled_toJsonList terms, trivial⟩
  | conjunction factors => ⟨trivial, areWellSpelled_toJsonList factors, trivial⟩
  | negation inner => ⟨trivial, wellSpelled_toJson inner, trivial⟩
  | group inner => ⟨trivial, wellSpelled_toJson inner, trivial⟩
  | comparison left _ right =>
      ⟨trivial, wellSpelled_toJson left, trivial, wellSpelled_toJson right,
        trivial⟩
  | between subject _ low high =>
      ⟨trivial, subject.wellSpelled_toJson, trivial, wellSpelled_toJson low,
        wellSpelled_toJson high, trivial⟩
  | like subject _ pattern =>
      ⟨trivial, subject.wellSpelled_toJson, trivial, wellSpelled_toJson pattern,
        trivial⟩
  | member subject _ values =>
      ⟨trivial, subject.wellSpelled_toJson, trivial,
        Literal.areWellSpelled_map_toJson values, trivial⟩
  | isNull subject _ => ⟨trivial, subject.wellSpelled_toJson, trivial, trivial⟩
  | field _ => ⟨trivial, trivial, trivial⟩
  | literal _ => ⟨trivial, trivial, trivial, trivial⟩

theorem areWellSpelled_toJsonList : (operands : List Expr) →
    Json.AreWellSpelled (toJsonList operands)
  | [] => trivial
  | operand :: operands =>
      ⟨wellSpelled_toJson operand, areWellSpelled_toJsonList operands⟩

end

/-- The exported text is the text of the JSON form. -/
theorem read?_serialize (expression : Expr) :
    Json.read? expression.serialize = some expression.toJson :=
  Json.read?_compact expression.wellSpelled_toJson

/-- The JSON form begins with the tag of the outermost construct. -/
theorem exists_members_of_toJson (expression : Expr) :
    ∃ members, expression.toJson = tagged expression.tag members := by
  cases expression <;> exact ⟨_, rfl⟩

theorem deserialize?_serialize (expression : Expr) :
    deserialize? expression.serialize = some expression := by
  rw [deserialize?, read?_serialize, Option.bind_some, ofJson?_toJson]

/-- The export loses nothing, whether or not a condition denotes the
expression: the exported text is read as a record that begins with the tag, the
expression is taken back from it, and no other expression has the same text. -/
theorem serialize_faithful (expression : Expr) :
    (∃ members, Json.read? expression.serialize =
      some (tagged expression.tag members)) ∧
    deserialize? expression.serialize = some expression ∧
    ∀ other : Expr,
      other.serialize = expression.serialize ↔ other = expression := by
  refine ⟨?_, expression.deserialize?_serialize, fun other => ⟨?_, ?_⟩⟩
  · obtain ⟨members, form⟩ := expression.exists_members_of_toJson
    exact ⟨members, form ▸ expression.read?_serialize⟩
  · intro sameText
    have imported := other.deserialize?_serialize
    rw [sameText, deserialize?_serialize] at imported
    exact (Option.some.inj imported).symm
  · intro same
    rw [same]

end Expr

end Criteria
