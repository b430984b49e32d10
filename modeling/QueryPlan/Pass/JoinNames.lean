import QueryPlan.Pass.Basic

/-!
# Names of join inputs

A join tells the names of its output fields apart, so the fields of an input and the
fields of the join at the same places may have different names. An executor that finds the
fields of a join input by name needs them to agree. This pass puts every join input whose
names differ under a projection that renames it. A join that emits only left rows shows
nothing of its right input, which then keeps its names.
-/

namespace QueryPlan

/-- Makes the names of the inputs of a join agree with its own. Other nodes stay. -/
def Plan.alignJoin (p : Plan) : PlanM Plan :=
  match p with
  | .join _ _ spec left right => do
    let left' ← p.alignedInput 0 left
    let right' ← if spec.joinType.emitsRight then p.alignedInput left.width right else pure right
    p.keepOver [left', right']
  | p => pure p

/-- Makes the names of all join inputs of a plan agree with the joins. -/
def Plan.alignJoins (root : Plan) : PlanM Plan :=
  root.walk {
    enter := fun _ => pure ()
    leave := fun p inputs => do
      let p' ← p.keepOver inputs
      p'.alignJoin }

namespace Pass

/-- The pass on join inputs. -/
def joinNames : Pass where
  name := "JoinInputRenamer"
  enabled s := s.renameJoinInputs
  run _ root := root.alignJoins

end Pass

end QueryPlan
