import QueryPlan.Enumeration
import QueryPlan.Text.Listing

/-!
# How rows are organised

Beside its schema every operator carries what is known about the organisation of its
output when the plan runs: how the rows are spread over the workers, and by which keys
they are sorted. Ordinals in both refer to the operator's own output row.
-/

namespace QueryPlan

/-- One key of a sort order, by ordinal. -/
structure SortKey where
  ordinal : Nat
  ascending : Bool
  nullsFirst : Bool
  deriving DecidableEq

/-- How rows are spread over the workers. -/
inductive Distribution where
  /-- Nothing is known. -/
  | any
  /-- All rows are on one worker. -/
  | single
  /-- Every worker has every row. -/
  | broadcast
  /-- Rows are spread by the values of the given columns. -/
  | hash (ordinals : List Nat)
  | roundRobin
  deriving DecidableEq

def Distribution.render : Distribution → String
  | .any => "Any"
  | .single => "Single"
  | .broadcast => "Broadcast"
  | .hash ordinals => "Hash(" ++ Text.bracketed (ordinals.map toString) ++ ")"
  | .roundRobin => "RoundRobin"

/-- What is known about the organisation of an output. -/
structure Traits where
  distribution : Distribution
  /-- The known sort order, if any. -/
  collation : Option (List SortKey)
  deriving DecidableEq

namespace Traits

/-- Nothing is known. -/
def unknown : Traits := ⟨.any, none⟩

/-- The distribution is known and the order is not. -/
def distributed (d : Distribution) : Traits := ⟨d, none⟩

/-- The sort order is kept and the distribution forgotten, as a join does with its left
input. -/
def forgetDistribution (t : Traits) : Traits := ⟨.any, t.collation⟩

/-- The distribution is kept and the order replaced. -/
def sortedBy (t : Traits) (order : List SortKey) : Traits := ⟨t.distribution, some order⟩

end Traits

end QueryPlan
