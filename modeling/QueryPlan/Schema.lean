import QueryPlan.Error
import QueryPlan.Names

/-!
# Row types

A schema lists the fields an operator yields, in order. Names need not be unique in
general; where they have to be, they go through `Names.disambiguate`.
-/

namespace QueryPlan

/-- One field of a row. -/
structure Field where
  name : String
  type : DataType
  deriving DecidableEq

/-- The type of a row. -/
structure Schema where
  fields : List Field
  deriving DecidableEq

namespace Schema

/-- The row without fields. -/
def empty : Schema := ⟨[]⟩

/-- The number of fields. -/
def width (s : Schema) : Nat := s.fields.length

/-- The field at an ordinal. -/
def field? (s : Schema) (i : Nat) : Option Field := s.fields[i]?

def names (s : Schema) : List String := s.fields.map Field.name

def types (s : Schema) : List DataType := s.fields.map Field.type

/-- Pairs names with types. -/
def ofNamesTypes (names : List String) (types : List DataType) : Schema :=
  ⟨List.zipWith Field.mk names types⟩

/-- The row of a projection: each field has the type of its expression. -/
def ofExprs (exprs : List Expr) (names : List String) : Except PlanError Schema :=
  if exprs.length = names.length then .ok (ofNamesTypes names (exprs.map Expr.type))
  else .error (.lengthMismatch exprs.length names.length)

/-- The same types under other names. -/
def renamed (s : Schema) (names : List String) : Except PlanError Schema :=
  if names.length = s.width then .ok (ofNamesTypes names s.types)
  else .error (.lengthMismatch s.width names.length)

/-- The row of a join: the left fields, then the right ones, under names told apart. A join
that emits only left rows has exactly the left row. -/
def join (left right : Schema) (joinType : JoinType) : Schema :=
  if joinType.emitsRight then
    ofNamesTypes (Names.disambiguate (left.names ++ right.names)) (left.types ++ right.types)
  else left

/-- One bare reference per field, in order. -/
def identity (s : Schema) : List Expr :=
  s.fields.mapIdx fun i f => .row ⟨i, f.type⟩

/-- The names in square brackets. -/
def render (s : Schema) : String := Text.bracketed s.names

@[simp] theorem width_ofNamesTypes (names : List String) (types : List DataType) :
    (ofNamesTypes names types).width = min names.length types.length := by
  simp [ofNamesTypes, width]

@[simp] theorem length_identity (s : Schema) : s.identity.length = s.width := by
  simp [identity, width]

end Schema

end QueryPlan
