import QueryPlan.Plan.Basic

/-!
# Showing a plan

A plan is shown as one line per node: the operator, then the names of its output row. The
inputs follow their node, two spaces further in.
-/

namespace QueryPlan.Plan

/-- The operator of the topmost node and its data. -/
def describe (p : Plan) : String := p.operator.describe

/-- The line of the topmost node. -/
def headline (depth : Nat) (p : Plan) : String :=
  String.ofList (List.replicate (2 * depth) ' ') ++ p.describe ++ " " ++ p.schema.render ++ "\n"

/-- The lines of all nodes, the topmost one at the given depth. -/
def explain (depth : Nat) : Plan → String
  | .source h s => headline depth (.source h s)
  | .transform h t input => headline depth (.transform h t input) ++ input.explain (depth + 1)
  | .join h algorithm spec left right =>
    headline depth (.join h algorithm spec left right) ++
      (left.explain (depth + 1) ++ right.explain (depth + 1))

end QueryPlan.Plan
