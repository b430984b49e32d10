import QueryPlan.Expr.Basic

/-!
# Replacing references

Moving an expression to another row means replacing its references: by references with
other ordinals, by references to one join input, or by whole expressions. The replacement
of a reference may fail, or may keep a record of what it has seen, so it is a computation
in any monad. References are met from left to right, in the order of `Expr.ordinals`, and
everything around them is kept.
-/

namespace QueryPlan

namespace Expr

mutual
/-- Replaces every reference to the row by what `f` makes of it. -/
def mapRefs {m : Type → Type} [Monad m] (f : RowRef → m Expr) : Expr → m Expr
  | .row r => f r
  | .side c => pure (.side c)
  | .literal v => pure (.literal v)
  | .binary op left right => do
    let left ← left.mapRefs f
    let right ← right.mapRefs f
    pure (.binary op left right)
  | .unary op operand => do
    let operand ← operand.mapRefs f
    pure (.unary op operand)
  | .call function args result => do
    let args ← mapRefsInAll f args
    pure (.call function args result)
  | .and es => do
    let es ← mapRefsInAll f es
    pure (.and es)
  | .or es => do
    let es ← mapRefsInAll f es
    pure (.or es)
/-- Replaces the references in every member, the first member first. -/
def mapRefsInAll {m : Type → Type} [Monad m] (f : RowRef → m Expr) : List Expr → m (List Expr)
  | [] => pure []
  | e :: es => do
    let e ← e.mapRefs f
    let es ← mapRefsInAll f es
    pure (e :: es)
end

theorem mapRefsInAll_eq_mapM {m : Type → Type} [Monad m] [LawfulMonad m]
    (f : RowRef → m Expr) (es : List Expr) :
    mapRefsInAll f es = es.mapM (mapRefs f) := by
  induction es with
  | nil => simp [mapRefsInAll]
  | cons e es ih => simp [mapRefsInAll, ih]

end Expr

end QueryPlan
