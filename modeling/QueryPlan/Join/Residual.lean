import QueryPlan.Expr.Substitution
import QueryPlan.Plan.Basic

/-!
# The extra condition of a join

What is left of a join condition beside the keys is tested on each matching pair of rows.
An executor that holds the two rows apart needs to know of each reference which row it
reads: ordinals below the left width read the left row, those after it the right row.
-/

namespace QueryPlan

/-- The field of one input that an ordinal of the combined row stands for. -/
def sideRef (leftNames rightNames : List String) (r : RowRef) : Except PlanError SideRef :=
  match leftNames[r.ordinal]? with
  | some name => .ok ⟨0, r.ordinal, name, r.type⟩
  | none =>
    match rightNames[r.ordinal - leftNames.length]? with
    | some name => .ok ⟨1, r.ordinal - leftNames.length, name, r.type⟩
    | none => .error (.inputUnresolved r.ordinal leftNames.length rightNames.length)

/-- The expression with every reference to the combined row resolved to one input. -/
def Expr.resolveSides (leftNames rightNames : List String) (e : Expr) :
    Except PlanError Expr :=
  e.mapRefs fun r => do
    let c ← sideRef leftNames rightNames r
    pure (.side c)

/-- The extra condition of a join, resolved to its inputs. There is none if the executor
does not want it (`vectorize` is off), if the join has none, or if it is always true. -/
def Plan.extraCondition (vectorize : Bool) : Plan → Except PlanError (Option Expr)
  | .join _ _ spec left right =>
    match spec.extra with
    | some extra =>
      if vectorize && !extra.alwaysTrue then
        some <$> extra.resolveSides left.fieldNames right.fieldNames
      else .ok none
    | none => .ok none
  | p => .error (.inputCount p.kind 2 p.inputs.length)

end QueryPlan
