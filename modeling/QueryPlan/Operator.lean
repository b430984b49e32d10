import QueryPlan.Schema
import QueryPlan.Traits

/-!
# Operators

Operators are grouped by the number of their inputs: a `Source` has none, a `Transform`
has one, and a join has two. A node of a plan therefore cannot have the wrong number of
inputs.
-/

namespace QueryPlan

/-- A table in a catalog. -/
structure Table where
  schema : String
  name : String
  deriving DecidableEq

def Table.render (t : Table) : String := t.schema ++ "." ++ t.name

inductive AggregateFunction where
  | count
  | sum
  | avg
  | min
  | max
  deriving DecidableEq

instance : Enumeration AggregateFunction where
  all := [.count, .sum, .avg, .min, .max]
  name
    | .count => "Count"
    | .sum => "Sum"
    | .avg => "Avg"
    | .min => "Min"
    | .max => "Max"
  mem_all a := by cases a <;> decide
  name_injective a b := by cases a <;> cases b <;> simp

/-- An aggregate over columns of the input, and the field it yields. -/
structure Aggregate where
  function : AggregateFunction
  args : List Nat
  distinct : Bool
  name : String
  type : DataType
  deriving DecidableEq

/-- An operator without inputs. -/
inductive Source where
  | scan (table : Table)
  /-- Rows that stand in the plan itself. -/
  | values (rows : Nat)
  deriving DecidableEq

/-- An operator with one input. -/
inductive Transform where
  | filter (predicate : Expr)
  /-- Only a projection that restores the names a user sees may repeat a name. -/
  | project (exprs : List Expr) (allowDuplicates : Bool)
  | aggregate (groupBy : List Nat) (aggregates : List Aggregate)
  | sort (order : List SortKey)
  | limit (offset count : Nat)
  | exchange (distribution : Distribution)
  /-- Writes its input into a table and yields a summary of that. -/
  | writer (target : Table)
  /-- Hands its input to the user. -/
  | screen
  deriving BEq

/-- An operator of any kind. -/
inductive Operator where
  | source (s : Source)
  | transform (t : Transform)
  | join (algorithm : JoinAlgorithm) (spec : JoinSpec)
  deriving BEq

def Source.kind : Source → OperatorKind
  | .scan _ => .scan
  | .values _ => .values

def Transform.kind : Transform → OperatorKind
  | .filter _ => .filter
  | .project _ _ => .project
  | .aggregate _ _ => .hashAggregate
  | .sort _ => .sort
  | .limit _ _ => .limit
  | .exchange _ => .exchange
  | .writer _ => .writer
  | .screen => .screen

namespace Operator

def kind : Operator → OperatorKind
  | .source s => s.kind
  | .transform t => t.kind
  | .join algorithm _ => .ofAlgorithm algorithm

/-- The description of the join, if the operator is one. -/
def joinSpec? : Operator → Option JoinSpec
  | .join _ spec => some spec
  | _ => none

/-- The operator and its data on one line. -/
def describe : Operator → String
  | .source (.scan table) => "Scan(" ++ table.render ++ ")"
  | .source (.values rows) => "Values(rows=" ++ toString rows ++ ")"
  | .transform (.filter predicate) => "Filter(" ++ predicate.render ++ ")"
  | .transform (.project exprs allowDuplicates) =>
    (if allowDuplicates then "ProjectAllowDup" else "Project") ++ "(" ++
      Text.listing (exprs.map Expr.render) ++ ")"
  | .transform (.aggregate groupBy aggregates) =>
    "HashAggregate(group=" ++ Text.bracketed (groupBy.map toString) ++ ", aggs=" ++
      toString aggregates.length ++ ")"
  | .transform (.sort order) =>
    "Sort(" ++ Text.bracketed (order.map fun k => toString k.ordinal) ++ ")"
  | .transform (.limit offset count) =>
    "Limit(" ++ toString offset ++ ", " ++ toString count ++ ")"
  | .transform (.exchange distribution) => "Exchange(" ++ distribution.render ++ ")"
  | .transform (.writer target) => "Writer(" ++ target.render ++ ")"
  | .transform .screen => "Screen"
  | .join algorithm spec =>
    Enumeration.name (OperatorKind.ofAlgorithm algorithm) ++ "(" ++
      Enumeration.name spec.joinType ++ ", " ++ spec.condition.render ++ ")"

end Operator

end QueryPlan
