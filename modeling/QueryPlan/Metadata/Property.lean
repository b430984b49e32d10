import QueryPlan.Expr.Equality
import QueryPlan.Traits

/-!
# Properties of a subplan

The planner asks for properties of a subplan: how many rows it yields, how selective a
predicate is on it, how its output is organised. Some properties have parameters. A
handler that computes a property declares two more parameters in front of these, the node
in question and the context through which it may ask further questions.
-/

namespace QueryPlan.Metadata

/-- Something that can be asked about a subplan. -/
inductive Property where
  /-- The estimated number of rows. -/
  | rowCount
  /-- An upper bound on the number of rows. -/
  | maxRowCount
  /-- The estimated number of distinct values of some columns, under a predicate. -/
  | distinctRowCount
  /-- The fraction of rows that pass a predicate. -/
  | selectivity
  /-- Whether some columns are unique, rows with unknown values left out or not. -/
  | columnUniqueness
  | distribution
  | collation
  deriving DecidableEq

instance : Enumeration Property where
  all := [.rowCount, .maxRowCount, .distinctRowCount, .selectivity, .columnUniqueness,
    .distribution, .collation]
  name
    | .rowCount => "RowCount"
    | .maxRowCount => "MaxRowCount"
    | .distinctRowCount => "DistinctRowCount"
    | .selectivity => "Selectivity"
    | .columnUniqueness => "ColumnUniqueness"
    | .distribution => "Distribution"
    | .collation => "Collation"
  mem_all a := by cases a <;> decide
  name_injective a b := by cases a <;> cases b <;> simp

/-- The role of a parameter. -/
inductive Parameter where
  | node
  | context
  | columns
  | predicate
  | flag
  deriving DecidableEq

instance : Enumeration Parameter where
  all := [.node, .context, .columns, .predicate, .flag]
  name
    | .node => "Node"
    | .context => "Context"
    | .columns => "Columns"
    | .predicate => "Predicate"
    | .flag => "Flag"
  mem_all a := by cases a <;> decide
  name_injective a b := by cases a <;> cases b <;> simp

namespace Parameter

/-- The parameters every handler declares first. -/
def implicit : List Parameter := [.node, .context]

/-- A parameter list as it stands in a message. -/
def renderAll (ps : List Parameter) : String := Text.bracketed (Enumeration.names ps)

end Parameter

namespace Property

/-- The parameters of the property itself. -/
def parameters : Property → List Parameter
  | .rowCount | .maxRowCount | .distribution | .collation => []
  | .distinctRowCount => [.columns, .predicate]
  | .selectivity => [.predicate]
  | .columnUniqueness => [.columns, .flag]

/-- What a handler of the property has to declare. -/
def signature (p : Property) : List Parameter := Parameter.implicit ++ p.parameters

end Property

/-- A value for a parameter of a property. -/
inductive Argument where
  | columns (ordinals : List Nat)
  | predicate (expr : Option Expr)
  | flag (value : Bool)
  deriving BEq

def Argument.parameter : Argument → Parameter
  | .columns _ => .columns
  | .predicate _ => .predicate
  | .flag _ => .flag

/-- The answer to a question about a subplan. -/
inductive Value where
  | number (x : Double)
  | bool (b : Bool)
  | distribution (d : Distribution)
  | collation (keys : List SortKey)
  deriving DecidableEq

namespace Value

def number? : Value → Option Double
  | .number x => some x
  | _ => none

def bool? : Value → Option Bool
  | .bool b => some b
  | _ => none

def distribution? : Value → Option Distribution
  | .distribution d => some d
  | _ => none

def collation? : Value → Option (List SortKey)
  | .collation keys => some keys
  | _ => none

end Value

end QueryPlan.Metadata
