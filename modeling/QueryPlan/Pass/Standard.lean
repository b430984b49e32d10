import QueryPlan.Pass.JoinNames
import QueryPlan.Pass.StarColumns

/-!
# The standard passes

Star columns come first, so that join inputs are renamed against the prefixed names.
-/

namespace QueryPlan.Pass

/-- The passes every plan goes through, in order. -/
def standard : List Pass := [starColumns, joinNames]

end QueryPlan.Pass
