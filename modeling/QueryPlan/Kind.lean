import QueryPlan.Enumeration
import QueryPlan.Join.Basic

/-!
# Kinds of operators

The kind of an operator is the operator without its data. It decides how many inputs the
operator takes, and it is what metadata handlers are bound to.
-/

namespace QueryPlan

/-- The kinds of operators, in the order in which they are listed to a reader. -/
inductive OperatorKind where
  | scan
  | values
  | filter
  | project
  | hashJoin
  | mergeJoin
  | nestedLoopJoin
  | hashAggregate
  | sort
  | limit
  | exchange
  | writer
  | screen
  deriving DecidableEq

instance : Enumeration OperatorKind where
  all := [.scan, .values, .filter, .project, .hashJoin, .mergeJoin, .nestedLoopJoin,
    .hashAggregate, .sort, .limit, .exchange, .writer, .screen]
  name
    | .scan => "Scan"
    | .values => "Values"
    | .filter => "Filter"
    | .project => "Project"
    | .hashJoin => "HashJoin"
    | .mergeJoin => "MergeJoin"
    | .nestedLoopJoin => "NestedLoopJoin"
    | .hashAggregate => "HashAggregate"
    | .sort => "Sort"
    | .limit => "Limit"
    | .exchange => "Exchange"
    | .writer => "Writer"
    | .screen => "Screen"
  mem_all a := by cases a <;> decide
  name_injective a b := by cases a <;> cases b <;> simp

namespace OperatorKind

/-- The number of inputs. -/
def arity : OperatorKind → Nat
  | .scan | .values => 0
  | .hashJoin | .mergeJoin | .nestedLoopJoin => 2
  | _ => 1

/-- Joins are the operators with two inputs. -/
def isJoin (k : OperatorKind) : Bool := k.arity == 2

/-- The kind of the join that is carried out by the given algorithm. -/
def ofAlgorithm : JoinAlgorithm → OperatorKind
  | .hash => .hashJoin
  | .merge => .mergeJoin
  | .nestedLoop => .nestedLoopJoin

@[simp] theorem arity_ofAlgorithm (a : JoinAlgorithm) : (ofAlgorithm a).arity = 2 := by
  cases a <;> rfl

end OperatorKind

end QueryPlan
