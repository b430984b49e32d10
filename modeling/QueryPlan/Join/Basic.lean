import QueryPlan.Expr.Equality

/-!
# What a join says

All join algorithms share one description. The condition is written over the combined row.
Its leading conjuncts correspond one by one to the key pairs, which give an ordinal on
either side; whatever is left over is the extra condition, tested on each matching pair of
rows.
-/

namespace QueryPlan

/-- Which rows a join emits. -/
inductive JoinType where
  | inner
  | left
  | right
  | full
  /-- The left rows that have a match. -/
  | semi
  /-- The left rows that have no match. -/
  | anti
  deriving DecidableEq

instance : Enumeration JoinType where
  all := [.inner, .left, .right, .full, .semi, .anti]
  name
    | .inner => "Inner"
    | .left => "Left"
    | .right => "Right"
    | .full => "Full"
    | .semi => "Semi"
    | .anti => "Anti"
  mem_all a := by cases a <;> decide
  name_injective a b := by cases a <;> cases b <;> simp

/-- The output row has the fields of the right input, too. -/
def JoinType.emitsRight : JoinType → Bool
  | .semi | .anti => false
  | _ => true

/-- How a join is carried out. -/
inductive JoinAlgorithm where
  | hash
  | merge
  | nestedLoop
  deriving DecidableEq

instance : Enumeration JoinAlgorithm where
  all := [.hash, .merge, .nestedLoop]
  name
    | .hash => "Hash"
    | .merge => "Merge"
    | .nestedLoop => "NestedLoop"
  mem_all a := by cases a <;> decide
  name_injective a b := by cases a <;> cases b <;> simp

/-- The description of a join. -/
structure JoinSpec where
  joinType : JoinType
  /-- Over the combined row. -/
  condition : Expr
  /-- Pairs of a left and a right ordinal, each within its own input. -/
  keys : List (Nat × Nat)
  /-- Over the combined row. -/
  extra : Option Expr
  deriving BEq

namespace JoinSpec

def leftKeys (s : JoinSpec) : List Nat := s.keys.map Prod.fst

def rightKeys (s : JoinSpec) : List Nat := s.keys.map Prod.snd

end JoinSpec

end QueryPlan
