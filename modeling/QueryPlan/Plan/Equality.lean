import QueryPlan.Plan.Basic

/-!
# Equality of plans

Two plans are the same when their trees agree in operators, schemas and traits. Identities
do not count, so a plan that was built twice is the same as itself.

A shared subplan need not be compared with itself. `equal` takes this shortcut at the
inputs of a node; `same` looks at every node. Both are kept, because that they agree is a
fact about how identities are given out, and not one about the comparison.
-/

namespace QueryPlan

/-- The schemas and the traits agree. -/
def Header.alike (h h' : Header) : Bool := h.schema == h'.schema && h.traits == h'.traits

namespace Plan

/-- The trees agree in everything but identities. -/
def same : Plan → Plan → Bool
  | .source h s, .source h' s' => s == s' && h.alike h'
  | .transform h t p, .transform h' t' p' => t == t' && h.alike h' && p.same p'
  | .join h a spec l r, .join h' a' spec' l' r' =>
    (a == a' && spec == spec') && h.alike h' && (l.same l' && r.same r')
  | _, _ => false

/-- As `same`, except that inputs of one identity are taken to be the same unseen. -/
def equal : Plan → Plan → Bool
  | .source h s, .source h' s' => s == s' && h.alike h'
  | .transform h t p, .transform h' t' p' =>
    t == t' && h.alike h' && (p.id == p'.id || p.equal p')
  | .join h a spec l r, .join h' a' spec' l' r' =>
    (a == a' && spec == spec') && h.alike h' &&
      ((l.id == l'.id || l.equal l') && (r.id == r'.id || r.equal r'))
  | _, _ => false

end Plan

end QueryPlan
