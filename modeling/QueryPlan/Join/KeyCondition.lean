import QueryPlan.Plan.Basic

/-!
# Join keys as conditions on names

Execution wants each key pair of a join as a comparator between a field of the left input
and a field of the right one, the fields by name. The comparator comes from the conjunct
at the same place: the conjuncts of the condition and the key pairs go in step. Only the
two equality comparators can serve, and anything else at the place of a key is refused.
Conjuncts behind the last key pair are not looked at.

A name is written between back-ticks, in which a back-tick and a backslash get a backslash
in front. A dot in a name means nothing.
-/

namespace QueryPlan

/-- How the two fields of a key are compared. -/
inductive Comparator where
  /-- Unknown values never match. -/
  | equals
  /-- Unknown values match each other. -/
  | isNotDistinctFrom
  deriving DecidableEq

instance : Enumeration Comparator where
  all := [.equals, .isNotDistinctFrom]
  name
    | .equals => "Equals"
    | .isNotDistinctFrom => "IsNotDistinctFrom"
  mem_all a := by cases a <;> decide
  name_injective a b := by cases a <;> cases b <;> simp

namespace Comparator

def render : Comparator → String
  | .equals => "EQUALS"
  | .isNotDistinctFrom => "IS_NOT_DISTINCT_FROM"

/-- The comparator that an operator stands for. -/
def ofBinaryOp? : BinaryOp → Option Comparator
  | .eq => some .equals
  | .isNotDistinctFrom => some .isNotDistinctFrom
  | _ => none

/-- The comparator of a conjunct, if it is a comparison that can serve as a key. -/
def ofConjunct? : Expr → Option Comparator
  | .binary op _ _ => ofBinaryOp? op
  | _ => none

end Comparator

/-- A field by its name. -/
structure QuotedName where
  name : String
  deriving DecidableEq

namespace QuotedName

/-- One character between back-ticks. -/
def escapeChar (c : Char) : List Char :=
  if c == '`' || c == '\\' then ['\\', c] else [c]

/-- The name between back-ticks. -/
def render (q : QuotedName) : String :=
  "`" ++ String.ofList (q.name.toList.flatMap escapeChar) ++ "`"

end QuotedName

/-- One join key as it is handed to execution. -/
structure KeyCondition where
  comparator : Comparator
  left : QuotedName
  right : QuotedName
  deriving DecidableEq

/-- The left name, the comparator and the right name. -/
def KeyCondition.render (k : KeyCondition) : String :=
  k.left.render ++ " " ++ k.comparator.render ++ " " ++ k.right.render

/-- The name at an ordinal of a row. -/
def nameAt (names : List String) (i : Nat) : Except PlanError QuotedName :=
  match names[i]? with
  | some name => .ok ⟨name⟩
  | none => .error (.ordinalOutOfRange i names.length)

/-- The condition for the key pair at a position. -/
def keyConditionAt (conjuncts : List Expr) (leftNames rightNames : List String)
    (position : Nat) (key : Nat × Nat) : Except PlanError KeyCondition :=
  match conjuncts[position]? with
  | none => .error (.conjunctMissing position conjuncts.length)
  | some conjunct =>
    match Comparator.ofConjunct? conjunct with
    | none => .error (.comparatorUnsupported conjunct.render)
    | some comparator => do
      let left ← nameAt leftNames key.1
      let right ← nameAt rightNames key.2
      pure ⟨comparator, left, right⟩

/-- One condition per key pair, in order. A left key without a right one, or the other way
round, is no pair. -/
def keyConditions (condition : Expr) (leftNames rightNames : List String)
    (leftKeys rightKeys : List Nat) : Except PlanError (List KeyCondition) :=
  (leftKeys.zip rightKeys).zipIdx.mapM fun (key, position) =>
    keyConditionAt condition.conjuncts leftNames rightNames position key

/-- The key conditions of a join, under the names of its inputs. -/
def Plan.keyConditions : Plan → Except PlanError (List KeyCondition)
  | .join _ _ spec left right =>
    QueryPlan.keyConditions spec.condition left.fieldNames right.fieldNames spec.leftKeys
      spec.rightKeys
  | p => .error (.inputCount p.kind 2 p.inputs.length)

end QueryPlan
