import QueryPlan.Plan.Build

/-!
# Walking a plan

Every pass is one walk from the root down and back up. On the way down a node is entered
before its inputs; on the way up it is left together with what its inputs have become, and
what is returned then takes its place. The walk goes through the inputs from left to
right, and it visits a shared subplan once for each place it has.

What the two steps do besides, keep a record, decide something once and for all, fail, is
up to the monad.
-/

namespace QueryPlan

/-- The two steps of a walk at a node. -/
structure Walk (m : Type → Type) where
  /-- Before the inputs are visited. -/
  enter : Plan → m Unit
  /-- After the inputs have become the given plans; returns what the node becomes. -/
  leave : Plan → List Plan → m Plan

/-- Walks the plan and returns what its root becomes. -/
def Plan.walk {m : Type → Type} [Monad m] (w : Walk m) : Plan → m Plan
  | .source h s => do
    w.enter (.source h s)
    w.leave (.source h s) []
  | .transform h t input => do
    w.enter (.transform h t input)
    let input' ← input.walk w
    w.leave (.transform h t input) [input']
  | .join h algorithm spec left right => do
    w.enter (.join h algorithm spec left right)
    let left' ← left.walk w
    let right' ← right.walk w
    w.leave (.join h algorithm spec left right) [left', right']

/-- The node itself if its inputs are the ones it has, and otherwise a new node over
them. -/
def Plan.keepOver (p : Plan) (inputs : List Plan) : PlanM Plan :=
  if p.hasInputs inputs then pure p else p.withInputs inputs

/-- Puts every operator over its rebuilt inputs, so that all nodes are new. -/
def Plan.rebuild (p : Plan) : PlanM Plan :=
  p.walk ⟨fun _ => pure (), Plan.withInputs⟩

end QueryPlan
